import CounselReady.Api.Deps
import CounselReady.Ingest.Service

/-! # Case and Document Routes

    `app.api.cases`. A case, or a document of a case, is reached through its
    owner; anything else is a 404.
-/

namespace CounselReady

open Relational Framework Handler

variable {Token : Type}

def case_not_found : Exc := http_error 404 "Case not found"

def document_not_found : Exc := http_error 404 "Document not found"

def upload_chunk : Nat := 64 * 1024

/-! ### Ownership -/

def owned_case (account : UserAccount) (case_id : Uuid) : Handler Case := do
  let found ← select_one .case_ (fun c : Case => c.id == case_id && c.owner_id == account.id)
  some_or found case_not_found

def owned_document (case : Case) (document_id : Uuid) : Handler Document := do
  let found ← select_one .document (fun d : Document =>
    d.id == document_id && d.case_id == case.id)
  some_or found document_not_found

/-- `_audit`, with the flush that follows it. -/
def audit (id : Uuid) (account : UserAccount) (case_id : Option Uuid) (action : CaseAction)
    (detail : Option (List (String × Nat))) : Handler Unit :=
  insert .case_audit_event ({
    id := id, actor_user_id := some account.id, case_id := case_id, action := action
    detail := detail } : CaseAuditEvent)

/-! ### Answers -/

def case_response (case : Case) : CaseResponse :=
  ⟨case.id, case.title, case.jurisdiction, case.court, case.case_number⟩

def document_response (document : Document) : DocumentResponse :=
  ⟨document.id, document.title, document.kind, document.page_count, document.ocr_status,
    document.filed_at⟩

def passage_response (passage : Passage) : PassageResponse :=
  ⟨passage.id, passage.start_offset, passage.end_offset, passage.quote⟩

def page_response (passages : List Passage) (page : DocumentPage) : PageResponse where
  page_number := page.page_number
  text := page.text
  ocr_confidence := page.ocr_confidence
  passages := (order_by (fun a b : Passage => decide (a.start_offset ≤ b.start_offset))
    (passages.filter (fun p => p.page_id == page.id))).map passage_response

/-! ### Cases -/

def create_case (srv : Server Token) (env : Env) (credentials : Option Token)
    (title : String) (court case_number : Option String) : Handler (Reply Token) := do
  let account ← current_user srv env credentials
  require (length_within 1 200 title) unprocessable
  require (length_at_most 200 court) unprocessable
  require (length_at_most 100 case_number) unprocessable
  let case : Case := {
    id := env.uuid 0, created_at := env.now, owner_id := account.id, title := title
    jurisdiction := .florida, court := court, case_number := case_number }
  insert .case_ case
  audit (env.uuid 1) account (some case.id) .case_created none
  pure (.case_ (case_response case))

def list_cases (srv : Server Token) (env : Env) (credentials : Option Token) :
    Handler (Reply Token) := do
  let account ← current_user srv env credentials
  let rows ← select .case_ (fun c : Case => c.owner_id == account.id)
  let cases := order_by (fun a b : Case => decide (a.created_at ≤ b.created_at)) rows
  audit (env.uuid 0) account none .case_list (some [("cases", cases.length)])
  pure (.cases (cases.map case_response))

def read_case (srv : Server Token) (env : Env) (credentials : Option Token)
    (case_id : Uuid) : Handler (Reply Token) := do
  let account ← current_user srv env credentials
  let case ← owned_case account case_id
  audit (env.uuid 0) account (some case.id) .case_read none
  pure (.case_ (case_response case))

/-! ### Documents -/

def list_documents (srv : Server Token) (env : Env) (credentials : Option Token)
    (case_id : Uuid) : Handler (Reply Token) := do
  let account ← current_user srv env credentials
  let case ← owned_case account case_id
  let rows ← select .document (fun d : Document => d.case_id == case.id)
  let documents := order_by (fun a b : Document => decide (a.created_at ≤ b.created_at)) rows
  audit (env.uuid 0) account (some case.id) .document_list
    (some [("documents", documents.length)])
  pure (.documents (documents.map document_response))

def read_document (srv : Server Token) (env : Env) (credentials : Option Token)
    (case_id document_id : Uuid) : Handler (Reply Token) := do
  let account ← current_user srv env credentials
  let case ← owned_case account case_id
  let document ← owned_document case document_id
  let rows ← select .document_page (fun p : DocumentPage => p.document_id == document.id)
  let pages := order_by (fun a b : DocumentPage => decide (a.page_number ≤ b.page_number)) rows
  let passages ← select .passage (fun p : Passage =>
    (pages.map DocumentPage.id).contains p.page_id)
  audit (env.uuid 0) account (some document.case_id) .document_read
    (some [("pages", pages.length)])
  pure (.document_detail (document_response document) (pages.map (page_response passages)))

/-! ### Uploads -/

/-- A multipart upload: the file's bytes and name, the form fields, and the
    `Content-Length` of the request when it is a number. -/
structure Upload where
  data : Bytes
  filename : Option String
  title : Option String
  source : String
  content_length : Option Nat
  deriving DecidableEq

/-- `_stream`. Each turn takes a byte at least, so the length bounds the turns. -/
def stream_turns : (turns : Nat) → Bytes → List Bytes
  | 0, _ => []
  | turns + 1, data =>
      if data.isEmpty then []
      else data.take upload_chunk :: stream_turns turns (data.drop upload_chunk)

def stream (data : Bytes) : List Bytes := stream_turns data.length data

/-- `IngestSource(source)`. -/
def parse_source : String → Option IngestSource
  | "upload" => some .upload
  | "camera" => some .camera
  | "email" => some .email
  | _ => none

def read_answer : Exc → Exc
  | .upload_too_large => http_error 413 "That file is larger than the upload limit."
  | .empty_upload => http_error 422 "The file is empty."
  | e => e

def ingest_answer : Exc → Exc
  | .duplicate_document existing_id =>
      .http ⟨409, .duplicate "This document is already in the case." existing_id, []⟩
  | .not_a_pdf => http_error 422 "That file is not a PDF."
  | .encrypted_pdf =>
      http_error 422 "That PDF is password-protected. Remove the password and try again."
  | .too_many_pages => http_error 422 "That document has more pages than we can process."
  | .unreadable_pdf => http_error 422 "That PDF could not be read."
  | e => e

def upload_document (srv : Server Token) (env : Env) (credentials : Option Token)
    (case_id : Uuid) (upload : Upload) : Handler (Reply Token) := do
  let account ← current_user srv env credentials
  let case ← owned_case account case_id
  let data ← (read_bounded (stream upload.data) default_max_upload_bytes
    upload.content_length).rethrow read_answer
  let ingest_source ← some_or (parse_source upload.source)
    (http_error 422 "Unknown upload source.")
  let document ← (ingest_document srv env {
    case_id := case.id
    title := or_else upload.title (or_else upload.filename "Untitled document")
    ingest_source := ingest_source
    data := data
    kind := .unclassified }).rethrow ingest_answer
  audit (env.uuid 2) account (some case.id) .document_uploaded
    (some [("pages", document.page_count.toNat)])
  pure (.document (document_response document))

end CounselReady
