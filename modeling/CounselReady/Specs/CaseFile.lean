import CounselReady.Specs.Upload

/-! # What a Case Request Does

    The nine case, document and timeline routes have one shape: they are
    refused, or they do what the route says and leave one row in the audit
    trail. `CaseAccess` says what each route does, reads and records; a reader
    can check it against `app.api.cases` and `app.api.events` route by route.
-/

namespace CounselReady

open Relational Framework Handler Prog

variable {Token : Type} {srv : Server Token} {env : Env} {s : Session}

/-! ### The rows behind an answer -/

/-- The account's own case. -/
structure Owns (db : Database) (account : UserAccount) (case_id : Uuid) (c : Case) : Prop where
  mem : c ∈ db .case_
  id : c.id = case_id
  owner : c.owner_id = account.id

def cases_of (db : Database) (account : UserAccount) : List Case :=
  order_by (fun a b : Case => decide (a.created_at ≤ b.created_at))
    ((db .case_).filter (fun c : Case => c.owner_id == account.id))

def documents_of (db : Database) (case_id : Uuid) : List Document :=
  order_by (fun a b : Document => decide (a.created_at ≤ b.created_at))
    ((db .document).filter (fun d : Document => d.case_id == case_id))

def pages_of (db : Database) (document_id : Uuid) : List DocumentPage :=
  order_by (fun a b : DocumentPage => decide (a.page_number ≤ b.page_number))
    ((db .document_page).filter (fun p : DocumentPage => p.document_id == document_id))

def passages_on (db : Database) (pages : List DocumentPage) : List Passage :=
  (db .passage).filter (fun p : Passage => (pages.map DocumentPage.id).contains p.page_id)

/-- The rows a timeline is rendered with. -/
def loaded_of (db : Database) (events : List CaseEvent) : Loaded :=
  let passages := (db .passage).filter (fun p : Passage =>
    (events.filterMap CaseEvent.passage_id).contains p.id)
  let pages := (db .document_page).filter (fun p : DocumentPage =>
    (passages.map Passage.page_id).contains p.id)
  let documents := (db .document).filter (fun d : Document =>
    (pages.map DocumentPage.document_id).contains d.id)
  let notes := (db .case_event_note).filter (fun n : CaseEventNote =>
    (events.map CaseEvent.id).contains n.event_id)
  ⟨passages, pages, documents, notes⟩

def events_of (db : Database) (case_id : Uuid) : List CaseEvent :=
  order_by chronological ((db .case_event).filter (fun e : CaseEvent => e.case_id == case_id))

/-! ### The rows a request adds -/

def access_row (id : Uuid) (account : UserAccount) (case_id : Option Uuid) (action : CaseAction)
    (detail : Option (List (String × Nat))) : CaseAuditEvent where
  id := id
  actor_user_id := some account.id
  case_id := case_id
  action := action
  detail := detail

def new_case (env : Env) (account : UserAccount) (title : String)
    (court case_number : Option String) : Case where
  id := env.uuid 0
  created_at := env.now
  owner_id := account.id
  title := title
  jurisdiction := .florida
  court := court
  case_number := case_number

def new_event (env : Env) (account : UserAccount) (case_id : Uuid) (body : CreateEventRequest) :
    CaseEvent where
  id := env.uuid 0
  created_at := env.now
  case_id := case_id
  kind := body.kind.getD .alleged
  provenance := .user_asserted
  passage_id := none
  recorded_by_user_id := some account.id
  occurred_at := body.occurred_at
  date_precision := body.date_precision.getD .day
  summary := body.summary
  asserted_by_party_id := none
  about_party_id := none

def new_note (env : Env) (account : UserAccount) (event_id : Uuid) (body : String) :
    CaseEventNote where
  id := env.uuid 0
  created_at := env.now
  event_id := event_id
  author_user_id := account.id
  body := body

/-! ### What each route does -/

/-- A request of `account` that went through: its route, its answer, the row it
    left in the audit trail, and the other rows as it left them. -/
inductive CaseAccess (srv : Server Token) (env : Env) (account : UserAccount) (db : Database) :
    Route Token → Reply Token → CaseAuditEvent → Database → Prop where
  | create_case (title : String) (court case_number : Option String) :
      CaseAccess srv env account db (.create_case title court case_number)
        (.case_ (case_response (new_case env account title court case_number)))
        (access_row (env.uuid 1) account (some (env.uuid 0)) .case_created none)
        (schema.effect (.insert .case_ (new_case env account title court case_number)) db)
  | list_cases :
      CaseAccess srv env account db .list_cases
        (.cases ((cases_of db account).map case_response))
        (access_row (env.uuid 0) account none .case_list
          (some [("cases", (cases_of db account).length)])) db
  | read_case (case_id : Uuid) (c : Case) (owned : Owns db account case_id c) :
      CaseAccess srv env account db (.read_case case_id) (.case_ (case_response c))
        (access_row (env.uuid 0) account (some case_id) .case_read none) db
  | list_documents (case_id : Uuid) (c : Case) (owned : Owns db account case_id c) :
      CaseAccess srv env account db (.list_documents case_id)
        (.documents ((documents_of db case_id).map document_response))
        (access_row (env.uuid 0) account (some case_id) .document_list
          (some [("documents", (documents_of db case_id).length)])) db
  | read_document (case_id document_id : Uuid) (c : Case) (owned : Owns db account case_id c)
      (d : Document) (mem : d ∈ db .document) (id : d.id = document_id)
      (within : d.case_id = case_id) :
      CaseAccess srv env account db (.read_document case_id document_id)
        (.document_detail (document_response d) ((pages_of db document_id).map
          (page_response (passages_on db (pages_of db document_id)))))
        (access_row (env.uuid 0) account (some case_id) .document_read
          (some [("pages", (pages_of db document_id).length)])) db
  | upload_document (case_id : Uuid) (upload : Upload) (c : Case)
      (owned : Owns db account case_id c) (source : IngestSource) (extraction : ExtractionResult)
      (read : extract_text_layer srv upload.data default_max_pages default_max_chars_per_page =
        .ok extraction) :
      CaseAccess srv env account db (.upload_document case_id upload)
        (.document (document_response
          (uploaded_document srv env case_id upload source extraction)))
        (access_row (env.uuid 2) account (some case_id) .document_uploaded
          (some [("pages", extraction.pages.length)]))
        (with_pages env (uploaded_document srv env case_id upload source extraction) extraction
          (page_rows env (env.uuid 0) extraction.pages) db)
  | list_events (case_id : Uuid) (c : Case) (owned : Owns db account case_id c) :
      CaseAccess srv env account db (.list_events case_id)
        (.events ((events_of db case_id).map
          (event_response (loaded_of db (events_of db case_id)))))
        (access_row (env.uuid 0) account (some case_id) .event_list
          (some [("events", (events_of db case_id).length)])) db
  | create_event (case_id : Uuid) (body : CreateEventRequest) (c : Case)
      (owned : Owns db account case_id c) :
      CaseAccess srv env account db (.create_event case_id body)
        (.event (event_response ⟨[], [], [], []⟩ (new_event env account case_id body)))
        (access_row (env.uuid 1) account (some case_id) .event_created none)
        (schema.effect (.insert .case_event (new_event env account case_id body)) db)
  | create_note (case_id event_id : Uuid) (body : String) (c : Case)
      (owned : Owns db account case_id c) (e : CaseEvent) (mem : e ∈ db .case_event)
      (id : e.id = event_id) (within : e.case_id = case_id) :
      CaseAccess srv env account db (.create_note case_id event_id body)
        (.note (note_response (new_note env account event_id body)))
        (access_row (env.uuid 1) account (some case_id) .event_note_created none)
        (schema.effect (.insert .case_event_note (new_note env account event_id body)) db)

/-! ### The shared steps -/

section steps
variable {β : Type} {Q : Except Exc β → Session → Prop}

theorem wps_owned_case_bind {account : UserAccount} {case_id : Uuid} {f : Case → Handler β}
    (herr : ∀ e, Q (.error e) s)
    (hok : ∀ c, Owns s.db account case_id c → wps (f c) Q s) :
    wps (owned_case account case_id >>= f) Q s := by
  refine wps_bind (wps_select_one_bind (herr _) (fun _ => ?_) fun c hc hpick _ => ?_)
  · exact wps_some_or.mpr ⟨fun _ h => (by cases h), fun _ => herr _⟩
  · refine wps_some_or.mpr ⟨fun c' hc' => ?_, fun _ => herr _⟩
    cases hc'
    have hboth : Case.id c = case_id ∧ c.owner_id = account.id := by simpa using hpick
    exact hok c ⟨hc, hboth.1, hboth.2⟩

theorem wps_owned_document_bind {case : Case} {document_id : Uuid} {f : Document → Handler β}
    (herr : ∀ e, Q (.error e) s)
    (hok : ∀ d ∈ s.db .document, Document.id d = document_id → d.case_id = case.id →
      wps (f d) Q s) :
    wps (owned_document case document_id >>= f) Q s := by
  refine wps_bind (wps_select_one_bind (herr _) (fun _ => ?_) fun d hd hpick _ => ?_)
  · exact wps_some_or.mpr ⟨fun _ h => (by cases h), fun _ => herr _⟩
  · refine wps_some_or.mpr ⟨fun d' hd' => ?_, fun _ => herr _⟩
    cases hd'
    have hboth : Document.id d = document_id ∧ d.case_id = case.id := by simpa using hpick
    exact hok d hd hboth.1 hboth.2

theorem wps_owned_event_bind {case : Case} {event_id : Uuid} {f : CaseEvent → Handler β}
    (herr : ∀ e, Q (.error e) s)
    (hok : ∀ e ∈ s.db .case_event, CaseEvent.id e = event_id → e.case_id = case.id →
      wps (f e) Q s) :
    wps (owned_event case event_id >>= f) Q s := by
  refine wps_bind (wps_select_one_bind (herr _) (fun _ => ?_) fun e he hpick _ => ?_)
  · exact wps_some_or.mpr ⟨fun _ h => (by cases h), fun _ => herr _⟩
  · refine wps_some_or.mpr ⟨fun e' he' => ?_, fun _ => herr _⟩
    cases he'
    have hboth : CaseEvent.id e = event_id ∧ e.case_id = case.id := by simpa using hpick
    exact hok e he hboth.1 hboth.2

/-- The audit row is the last statement of every case route. -/
theorem wps_audit_bind {id : Uuid} {account : UserAccount} {case_id : Option Uuid}
    {action : CaseAction} {detail : Option (List (String × Nat))} {b : β}
    (herr : ∀ e s', Q (.error e) s')
    (hok : ∀ s', s'.db = schema.effect
      (.insert .case_audit_event (access_row id account case_id action detail)) s.db →
      Q (.ok b) s') :
    wps (audit id account case_id action detail >>= fun _ => pure b) Q s :=
  wps_execute_bind (fun _ => herr _ _) fun _ => (wp_pure _).mpr (hok _ rfl)

end steps

/-! ### Every route -/

/-- **Case access.** One case for each route. -/
theorem wps_on_cases {req : Request Token} (hroute : req.route.on_cases = true)
    {Q : Except Exc (Reply Token) → Session → Prop} (herr : ∀ e s', Q (.error e) s')
    (hok : ∀ auth reply row db s', SignedIn srv env req.credentials s.db auth →
      CaseAccess srv env auth.account s.db req.route reply row db →
      s'.db = schema.effect (.insert .case_audit_event row) db → Q (.ok reply) s') :
    wps (respond srv env req) Q s := by
  obtain ⟨credentials, route⟩ := req
  -- each route walks its gates in the source's order; whatever stops it there is an error, and
  -- the entry of the audit trail is the last thing it writes
  cases route <;> try exact absurd hroute Bool.false_ne_true
  case create_case title court case_number =>
    refine wps_current_user_bind (fun _ => herr _ _) fun auth hauth => ?_
    refine wps_require_bind (fun _ => herr _ _) fun _ => ?_
    refine wps_require_bind (fun _ => herr _ _) fun _ => ?_
    refine wps_require_bind (fun _ => herr _ _) fun _ => ?_
    refine wps_execute_bind (fun _ => herr _ _) fun _ => ?_
    refine wps_audit_bind herr fun s' hs' => ?_
    exact hok auth _ _ _ s' hauth (.create_case title court case_number) hs'
  case list_cases =>
    refine wps_current_user_bind (fun _ => herr _ _) fun auth hauth => wps_select_bind ?_
    refine wps_audit_bind herr fun s' hs' => ?_
    exact hok auth _ _ _ s' hauth .list_cases hs'
  case read_case case_id =>
    refine wps_current_user_bind (fun _ => herr _ _) fun auth hauth => ?_
    refine wps_owned_case_bind (fun _ => herr _ _) fun c hc => ?_
    refine wps_audit_bind herr fun s' hs' => ?_
    rw [hc.id] at hs'
    exact hok auth _ _ _ s' hauth (.read_case case_id c hc) hs'
  case list_documents case_id =>
    refine wps_current_user_bind (fun _ => herr _ _) fun auth hauth => ?_
    refine wps_owned_case_bind (fun _ => herr _ _) fun c hc => wps_select_bind ?_
    refine wps_audit_bind herr fun s' hs' => ?_
    rw [hc.id] at hs' ⊢
    exact hok auth _ _ _ s' hauth (.list_documents case_id c hc) hs'
  case read_document case_id document_id =>
    refine wps_current_user_bind (fun _ => herr _ _) fun auth hauth => ?_
    refine wps_owned_case_bind (fun _ => herr _ _) fun c hc => ?_
    refine wps_owned_document_bind (fun _ => herr _ _) fun d hd hid hin => ?_
    refine wps_select_bind (wps_select_bind (wps_audit_bind herr fun s' hs' => ?_))
    rw [hc.id] at hin
    rw [hid, hin] at hs'
    rw [hid]
    exact hok auth _ _ _ s' hauth (.read_document case_id document_id c hc d hd hid hin) hs'
  case upload_document case_id upload =>
    refine wps_upload_document (fun _ => herr _ _) (fun _ _ _ _ _ _ => herr _ _) ?_
    intro auth source extraction s' hstores hread _ hs' _
    obtain ⟨c, hc, hid, howner⟩ := hstores.owned
    exact hok auth _ _ _ s' hstores.signed_in
      (.upload_document case_id upload c ⟨hc, hid, howner⟩ source extraction hread) hs'
  case list_events case_id =>
    refine wps_current_user_bind (fun _ => herr _ _) fun auth hauth => ?_
    refine wps_owned_case_bind (fun _ => herr _ _) fun c hc => wps_select_bind ?_
    refine wps_bind (wps_select_bind (wps_select_bind (wps_select_bind (wps_select_bind
      ((wp_pure _).mpr ?_)))))
    refine wps_audit_bind herr fun s' hs' => ?_
    rw [hc.id] at hs' ⊢
    exact hok auth _ _ _ s' hauth (.list_events case_id c hc) hs'
  case create_event case_id body =>
    refine wps_current_user_bind (fun _ => herr _ _) fun auth hauth => ?_
    refine wps_owned_case_bind (fun _ => herr _ _) fun c hc => ?_
    refine wps_require_bind (fun _ => herr _ _) fun _ => ?_
    refine wps_execute_bind (fun _ => herr _ _) fun _ => ?_
    refine wps_audit_bind herr fun s' hs' => ?_
    rw [hc.id] at hs' ⊢
    exact hok auth _ _ _ s' hauth (.create_event case_id body c hc) hs'
  case create_note case_id event_id body =>
    refine wps_current_user_bind (fun _ => herr _ _) fun auth hauth => ?_
    refine wps_owned_case_bind (fun _ => herr _ _) fun c hc => ?_
    refine wps_owned_event_bind (fun _ => herr _ _) fun e he hid hin => ?_
    refine wps_require_bind (fun _ => herr _ _) fun _ => ?_
    refine wps_execute_bind (fun _ => herr _ _) fun _ => ?_
    refine wps_audit_bind herr fun s' hs' => ?_
    rw [hc.id] at hin
    rw [hid, hc.id] at hs'
    rw [hid]
    exact hok auth _ _ _ s' hauth (.create_note case_id event_id body c hc e he hid hin) hs'

/-- A case request goes through and is committed, or is refused with the rows
    as they were. -/
theorem serve_on_cases {req : Request Token} (hroute : req.route.on_cases = true)
    (w : Committed) :
    (∃ auth reply row db, SignedIn srv env req.credentials w.db auth ∧
      CaseAccess srv env auth.account w.db req.route reply row db ∧
      (serve srv env req w).1 = .success req.route.success_status reply ∧
      (serve srv env req w).2.db = schema.effect (.insert .case_audit_event row) db) ∨
    ((serve srv env req w).1.refuses ∧ (serve srv env req w).2.db = w.db) := by
  let P : Response Token → Committed → Prop := fun resp w' =>
    (∃ auth reply row db, SignedIn srv env req.credentials w.db auth ∧
      CaseAccess srv env auth.account w.db req.route reply row db ∧
      resp = .success req.route.success_status reply ∧
      w'.db = schema.effect (.insert .case_audit_event row) db) ∨
    (resp.refuses ∧ w'.db = w.db)
  have hP : P (serve srv env req w).1 (serve srv env req w).2 := by
    apply serve_wps
    refine wps_on_cases hroute ?_ ?_
    · intro e s'
      exact .inr ⟨answer_error_refuses _ _, rfl⟩
    · intro auth reply row db s' hauth hacc hs'
      refine ⟨fun _ => .inl ⟨auth, reply, row, db, hauth, hacc, rfl, hs'⟩, fun _ => ?_⟩
      exact .inr ⟨trivial, rfl⟩
  exact hP

end CounselReady
