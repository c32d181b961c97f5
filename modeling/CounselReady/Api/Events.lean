import CounselReady.Api.Cases

/-! # Timeline Routes

    `app.api.events`. An entry created here is always the account holder's own;
    entries are never changed, a correction is a note beside one.
-/

namespace CounselReady

open Relational Framework Handler

variable {Token : Type}

def event_not_found : Exc := http_error 404 "Entry not found"

def note_response (note : CaseEventNote) : NoteResponse := ⟨note.id, note.body, note.created_at⟩

def owned_event (case : Case) (event_id : Uuid) : Handler CaseEvent := do
  let found ← select_one .case_event (fun e : CaseEvent =>
    e.id == event_id && e.case_id == case.id)
  some_or found event_not_found

/-! ### Reading a timeline -/

/-- The rows the `selectinload` options bring in. -/
structure Loaded where
  passages : List Passage
  pages : List DocumentPage
  documents : List Document
  notes : List CaseEventNote

def load_related (events : List CaseEvent) : Handler Loaded := do
  let passages ← select .passage (fun p : Passage =>
    (events.filterMap CaseEvent.passage_id).contains p.id)
  let pages ← select .document_page (fun p : DocumentPage =>
    (passages.map Passage.page_id).contains p.id)
  let documents ← select .document (fun d : Document =>
    (pages.map DocumentPage.document_id).contains d.id)
  let notes ← select .case_event_note (fun n : CaseEventNote =>
    (events.map CaseEvent.id).contains n.event_id)
  pure ⟨passages, pages, documents, notes⟩

def citation (loaded : Loaded) (event : CaseEvent) : Option CitationResponse :=
  match event.passage_id.bind (fun id => loaded.passages.find? (fun p => p.id == id)) with
  | none => none
  | some passage =>
      match loaded.pages.find? (fun p => p.id == passage.page_id) with
      | none => none
      | some page =>
          match loaded.documents.find? (fun d => d.id == page.document_id) with
          | none => none
          | some document =>
              some ⟨page.document_id, document.title, page.page_number, passage.quote⟩

def notes_of (loaded : Loaded) (event : CaseEvent) : List NoteResponse :=
  (order_by (fun a b : CaseEventNote => decide (a.created_at ≤ b.created_at))
    (loaded.notes.filter (fun n => n.event_id == event.id))).map note_response

def event_response (loaded : Loaded) (event : CaseEvent) : EventResponse where
  id := event.id
  kind := event.kind
  provenance := event.provenance
  occurred_at := event.occurred_at
  date_precision := event.date_precision
  summary := event.summary
  citation := citation loaded event
  notes := notes_of loaded event

/-- `ORDER BY occurred_at, created_at`. -/
def chronological (a b : CaseEvent) : Bool :=
  decide (a.occurred_at < b.occurred_at) ||
    (decide (a.occurred_at = b.occurred_at) && decide (a.created_at ≤ b.created_at))

def list_events (srv : Server Token) (env : Env) (credentials : Option Token)
    (case_id : Uuid) : Handler (Reply Token) := do
  let account ← current_user srv env credentials
  let case ← owned_case account case_id
  let rows ← select .case_event (fun e : CaseEvent => e.case_id == case.id)
  let events := order_by chronological rows
  let loaded ← load_related events
  audit (env.uuid 0) account (some case.id) .event_list (some [("events", events.length)])
  pure (.events (events.map (event_response loaded)))

/-! ### Recording -/

structure CreateEventRequest where
  summary : String
  occurred_at : Int
  kind : Option EventKind
  date_precision : Option DatePrecision
  deriving DecidableEq

def create_event (srv : Server Token) (env : Env) (credentials : Option Token)
    (case_id : Uuid) (body : CreateEventRequest) : Handler (Reply Token) := do
  let account ← current_user srv env credentials
  let case ← owned_case account case_id
  require (length_within 1 2000 body.summary) unprocessable
  let event : CaseEvent := {
    id := env.uuid 0, created_at := env.now, case_id := case.id
    kind := body.kind.getD .alleged, provenance := .user_asserted, passage_id := none
    recorded_by_user_id := some account.id, occurred_at := body.occurred_at
    date_precision := body.date_precision.getD .day, summary := body.summary
    asserted_by_party_id := none, about_party_id := none }
  insert .case_event event
  audit (env.uuid 1) account (some case.id) .event_created none
  pure (.event (event_response ⟨[], [], [], []⟩ event))

def create_note (srv : Server Token) (env : Env) (credentials : Option Token)
    (case_id event_id : Uuid) (body : String) : Handler (Reply Token) := do
  let account ← current_user srv env credentials
  let case ← owned_case account case_id
  let event ← owned_event case event_id
  require (length_within 1 2000 body) unprocessable
  let note : CaseEventNote := {
    id := env.uuid 0, created_at := env.now, event_id := event.id
    author_user_id := account.id, body := body }
  insert .case_event_note note
  audit (env.uuid 1) account (some case.id) .event_note_created none
  pure (.note (note_response note))

/-! ### Request bodies

    The models declare the fields they read; any other member of the JSON object
    is ignored. -/

inductive Json where
  | null
  | bool (b : Bool)
  | number (text : String)
  | string (s : String)
  | array (items : List Json)
  | object (members : List (String × Json))

abbrev JsonObject := List (String × Json)

/-- A member of the object: the last one of that name. -/
def JsonObject.member (body : JsonObject) (name : String) : Option Json :=
  (body.reverse.find? (fun m => m.1 == name)).map Prod.snd

def Json.str : Json → Option String
  | .string s => some s
  | _ => none

def EventKind.of_json : Json → Option EventKind
  | .string "procedural" => some .procedural
  | .string "alleged" => some .alleged
  | _ => none

def DatePrecision.of_json : Json → Option DatePrecision
  | .string "exact" => some .exact
  | .string "day" => some .day
  | .string "month" => some .month
  | .string "year" => some .year
  | _ => none

/-- A field with a default: absent, or a value that parses. -/
def JsonObject.defaulted {α : Type} (body : JsonObject) (name : String)
    (parse : Json → Option α) : Option (Option α) :=
  match body.member name with
  | none => some none
  | some value => (parse value).map some

/-- `datetime` is what the validation library reads as one. -/
def CreateEventRequest.validate (datetime : Json → Option Int) (body : JsonObject) :
    Option CreateEventRequest := do
  let summary ← (body.member "summary").bind Json.str
  let occurred_at ← (body.member "occurred_at").bind datetime
  let kind ← body.defaulted "kind" EventKind.of_json
  let date_precision ← body.defaulted "date_precision" DatePrecision.of_json
  pure ⟨summary, occurred_at, kind, date_precision⟩

/-- `POST /cases/{case_id}/events`. A body that does not validate is refused
    once the dependencies have let the caller through. -/
def post_event (srv : Server Token) (env : Env) (credentials : Option Token)
    (datetime : Json → Option Int) (case_id : Uuid) (body : JsonObject) :
    Handler (Reply Token) :=
  match CreateEventRequest.validate datetime body with
  | some request => create_event srv env credentials case_id request
  | none => do
      let account ← current_user srv env credentials
      let _ ← owned_case account case_id
      .raise unprocessable

/-- `POST /cases/{case_id}/events/{event_id}/notes`. -/
def post_note (srv : Server Token) (env : Env) (credentials : Option Token)
    (case_id event_id : Uuid) (body : JsonObject) : Handler (Reply Token) :=
  match (body.member "body").bind Json.str with
  | some text => create_note srv env credentials case_id event_id text
  | none => do
      let account ← current_user srv env credentials
      let case ← owned_case account case_id
      let _ ← owned_event case event_id
      .raise unprocessable

end CounselReady
