import CounselReady.Framework.Ordering
import CounselReady.App

/-! # The Filing Cabinet

    What the case, document and timeline routes are for, without rows, keys,
    sessions or transactions: each account has a drawer of case files, and a
    case file holds its documents in the order they came and a timeline in the
    order things happened. This is a statement of purpose, not a translation;
    `Guarantees.CaseCabinet` compares the server with it.
-/

namespace CounselReady

open Framework

variable {Token : Type}

/-! ### What is in it -/

/-- A document as its reader is shown it: what it is, and its pages. -/
abbrev Paper := DocumentResponse × List PageResponse

structure Folder where
  case : CaseResponse
  documents : List Paper
  timeline : List EventResponse
  deriving DecidableEq

/-- The drawer of each account. -/
abbrev Cabinet := Uuid → List Folder

namespace Cabinet

def empty : Cabinet := fun _ => []

def folder (cabinet : Cabinet) (account case_id : Uuid) : Option Folder :=
  (cabinet account).find? (fun f => f.case.id == case_id)

/-- One drawer is replaced. -/
def put (cabinet : Cabinet) (account : Uuid) (folders : List Folder) : Cabinet :=
  Function.update cabinet account folders

/-- One case file is changed. -/
def amend (cabinet : Cabinet) (account case_id : Uuid) (change : Folder → Folder) : Cabinet :=
  cabinet.put account
    ((cabinet account).map fun f => if f.case.id = case_id then change f else f)

end Cabinet

/-! ### What is put in -/

def empty_folder (case : CaseResponse) : Folder := ⟨case, [], []⟩

/-- A document as it is filed, its pages as they were read. -/
def filed_paper (id : Uuid) (upload : Upload) (reading : ExtractionResult) : Paper :=
  (⟨id, or_else upload.title (or_else upload.filename "Untitled document"), .unclassified,
      reading.pages.length, if reading.needs_ocr then .needs_ocr else .complete, none⟩,
    reading.pages.map fun page => ⟨page.page_number, page.text, none, []⟩)

def Folder.file (paper : Paper) (f : Folder) : Folder :=
  { f with documents := f.documents ++ [paper] }

/-- An entry in the account holder's own words. -/
def stated (id : Uuid) (body : CreateEventRequest) : EventResponse where
  id := id
  kind := body.kind.getD .alleged
  provenance := .user_asserted
  occurred_at := body.occurred_at
  date_precision := body.date_precision.getD .day
  summary := body.summary
  citation := none
  notes := []

/-- The older of two entries comes first. -/
def older (a b : EventResponse) : Bool := decide (a.occurred_at ≤ b.occurred_at)

/-- An entry goes where it happened, behind what happened at the same time. -/
def Folder.record (entry : EventResponse) (f : Folder) : Folder :=
  { f with timeline := insert_last older entry f.timeline }

/-- A note goes under its entry, behind the notes there. -/
def Folder.annotate (event_id : Uuid) (note : NoteResponse) (f : Folder) : Folder :=
  { f with timeline := f.timeline.map fun entry =>
      if entry.id = event_id then { entry with notes := entry.notes ++ [note] } else entry }

/-- A blank page takes the text it is read to have. -/
def read_page (results : List OcrPage) (page : PageResponse) : PageResponse :=
  if has_text page.text then page
  else
    match by_number results page.page_number with
    | none => page
    | some result =>
        { page with text := result.text, ocr_confidence := some result.confidence }

def read_paper (results : List OcrPage) (paper : Paper) : Paper :=
  let pages := paper.2.map (read_page results)
  ({ paper.1 with
      ocr_status := if pages.all (fun page => has_text page.text) then .complete else .needs_ocr },
    pages)

def Folder.read_in (document_id : Uuid) (results : List OcrPage) (f : Folder) : Folder :=
  { f with documents := f.documents.map fun paper =>
      if paper.1.id = document_id then read_paper results paper else paper }

/-! ### What it does -/

/-- The answer to an account's request, and the cabinet after it; none when what the
    request names is not in the account's drawer. `reading` is what is read off a file. -/
def Cabinet.serve (reading : Bytes → Except Exc ExtractionResult) (id : Uuid) (now : Nat)
    (account : Uuid) (cabinet : Cabinet) : Route Token → Option (Reply Token × Cabinet)
  | .create_case title court case_number =>
      let case : CaseResponse := ⟨id, title, .florida, court, case_number⟩
      some (.case_ case, cabinet.put account (cabinet account ++ [empty_folder case]))
  | .list_cases => some (.cases ((cabinet account).map Folder.case), cabinet)
  | .read_case case_id =>
      (cabinet.folder account case_id).map fun f => (.case_ f.case, cabinet)
  | .list_documents case_id =>
      (cabinet.folder account case_id).map fun f => (.documents (f.documents.map Prod.fst), cabinet)
  | .read_document case_id document_id => do
      let f ← cabinet.folder account case_id
      let paper ← f.documents.find? (fun paper => paper.1.id == document_id)
      some (.document_detail paper.1 paper.2, cabinet)
  | .upload_document case_id upload => do
      let _ ← cabinet.folder account case_id
      let extraction ← (reading upload.data).toOption
      let paper := filed_paper id upload extraction
      some (.document paper.1, cabinet.amend account case_id (Folder.file paper))
  | .list_events case_id =>
      (cabinet.folder account case_id).map fun f => (.events f.timeline, cabinet)
  | .create_event case_id body => do
      let _ ← cabinet.folder account case_id
      some (.event (stated id body), cabinet.amend account case_id (Folder.record (stated id body)))
  | .create_note case_id event_id body => do
      let f ← cabinet.folder account case_id
      let _ ← f.timeline.find? (fun entry => entry.id == event_id)
      let note : NoteResponse := ⟨id, body, now⟩
      some (.note note, cabinet.amend account case_id (Folder.annotate event_id note))
  | _ => none

/-- What an onlooker can tell of a step. -/
inductive Glimpse (Token : Type) where
  | answered (account id : Uuid) (now : Nat) (route : Route Token) (reply : Reply Token)
  | erased (account : Uuid)
  | read_in (document_id : Uuid) (results : List OcrPage)
  | quiet

/-- A step of the cabinet. -/
inductive Cabinet.Does (reading : Bytes → Except Exc ExtractionResult) :
    Cabinet → Glimpse Token → Cabinet → Prop where
  | answered {cabinet cabinet' : Cabinet} {account id : Uuid} {now : Nat} {route : Route Token}
      {reply : Reply Token}
      (serve : cabinet.serve reading id now account route = some (reply, cabinet')) :
      Cabinet.Does reading cabinet (.answered account id now route reply) cabinet'
  | erased (cabinet : Cabinet) (account : Uuid) :
      Cabinet.Does reading cabinet (.erased account) (cabinet.put account [])
  | read_in (cabinet : Cabinet) (document_id : Uuid) (results : List OcrPage) :
      Cabinet.Does reading cabinet (.read_in document_id results)
        (fun account => (cabinet account).map (Folder.read_in document_id results))
  | quiet (cabinet : Cabinet) : Cabinet.Does reading cabinet .quiet cabinet

end CounselReady
