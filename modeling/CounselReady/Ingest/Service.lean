import CounselReady.Ingest.Reading
import CounselReady.Jobs.Queue
import CounselReady.Storage

/-! # Document Ingest and OCR

    `app.ingest.service` and `app.ingest.ocr`. The bytes are stored before they
    are read, and before any row is written.
-/

namespace CounselReady

open Relational Framework Handler

variable {Token : Type}

/-! ### Ingest -/

structure IngestRequest where
  case_id : Uuid
  title : String
  ingest_source : IngestSource
  data : Bytes
  kind : DocumentKind

def page_rows (env : Env) (document_id : Uuid) (pages : List ExtractedPage) :
    List DocumentPage :=
  pages.mapIdx (fun i page => {
    id := env.uuid (3 + i), document_id := document_id, page_number := page.page_number
    text := page.text, ocr_confidence := none })

/-- The OCR job, when a page is blank. -/
def queue_ocr (env : Env) (document_id : Uuid) (extraction : ExtractionResult) : Handler Unit :=
  if extraction.needs_ocr then do
    let _ ← enqueue_ocr (env.uuid 1) env.now document_id
  else pure ()

/-- The rows of one document: itself, its OCR job when a page is blank, its pages. -/
def record_document (env : Env) (document : Document) (extraction : ExtractionResult) :
    Handler Unit := do
  insert .document document
  queue_ocr env document.id extraction
  insert_all .document_page (page_rows env document.id extraction.pages)

def new_document (env : Env) (request : IngestRequest) (key digest : String)
    (extraction : ExtractionResult) : Document where
  id := env.uuid 0
  created_at := env.now
  case_id := request.case_id
  title := request.title
  kind := request.kind
  ingest_source := request.ingest_source
  storage_key := key
  content_hash := digest
  filed_at := none
  page_count := extraction.pages.length
  ocr_status := if extraction.needs_ocr then .needs_ocr else .complete

def ingest_document (srv : Server Token) (env : Env) (request : IngestRequest) :
    Handler Document := do
  let digest := content_hash srv request.data
  match ← select_one .document (fun d : Document =>
    d.case_id == request.case_id && d.content_hash == digest) with
  | some existing => .raise (.duplicate_document existing.id)
  | none => do
      let key := storage_key request.case_id.str digest
      -- outside the transaction: no rollback takes it back
      put key request.data
      let extraction ← ok_or
        (extract_text_layer srv request.data default_max_pages default_max_chars_per_page)
      let document := new_document env request key digest extraction
      record_document env document extraction
      pure document

/-! ### OCR -/

structure OcrPage where
  page_number : Int
  text : String
  confidence : Confidence
  deriving DecidableEq

inductive OcrEngineError where
  | unavailable
  | failed
  deriving DecidableEq, Repr

abbrev OcrEngine := Bytes → Except OcrEngineError (List OcrPage)

/-- `{page.page_number: page for page in pages}.get(n)`: the last one listed. -/
def by_number (pages : List OcrPage) (n : Int) : Option OcrPage :=
  pages.reverse.find? (fun page => page.page_number == n)

/-- The pages as they stand after the fill. -/
def filled_page (pages : List OcrPage) (stored : DocumentPage) : DocumentPage :=
  if has_text stored.text then stored
  else
    match by_number pages stored.page_number with
    | none => stored
    | some result => PagePatch.apply (.fill result.text result.confidence) stored

/-- One UPDATE for each page that was blank and has a result. -/
def fill_pages (pages : List OcrPage) : List DocumentPage → Handler Nat
  | [] => pure 0
  | stored :: rest =>
      if has_text stored.text then fill_pages pages rest
      else
        match by_number pages stored.page_number with
        | none => fill_pages pages rest
        | some result => do
            update .document_page stored.id (.fill result.text result.confidence)
            let filled ← fill_pages pages rest
            pure (filled + 1)

def run_ocr_for_document (document_id : Uuid) (engine : OcrEngine) : Handler Nat := do
  match ← select_one .document (fun d : Document => d.id == document_id) with
  | none => .raise (.ocr_failure .document_not_found)
  | some document => do
      update .document document.id (.set_ocr_status .processing)
      let got : Except StoreError Bytes ← perform_ext (Ext.get document.storage_key)
      match got with
      | .error _ => .raise (.ocr_failure .document_bytes_missing)
      | .ok data =>
          match engine data with
          | .error .unavailable => .raise (.ocr_failure .ocr_engine_unavailable)
          | .error .failed => .raise (.ocr_failure .ocr_engine_failed)
          | .ok pages => do
              let stored_pages ← select .document_page
                (fun p : DocumentPage => p.document_id == document.id)
              -- the status goes by the pages as the fill leaves them
              let complete := (stored_pages.map (filled_page pages)).all
                (fun p => has_text p.text)
              let filled ← fill_pages pages stored_pages
              update .document document.id
                (.set_ocr_status (if complete then .complete else .needs_ocr))
              pure filled

end CounselReady
