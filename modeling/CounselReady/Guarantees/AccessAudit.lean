import CounselReady.Guarantees.Ownership
import CounselReady.Guarantees.DocumentBytes

/-! # Access and Its Audit Row

    A case request commits what it does together with one row of the audit
    trail, or commits nothing. The row names the caller, the action of the
    route and the case acted on; its detail counts what was returned or stored.
-/

namespace CounselReady

open Relational Framework

variable {Token : Type} {srv : Server Token} {env : Env}

/-! ### What the row should say -/

/-- The action each of the nine routes records. -/
def Route.action : Route Token → Option CaseAction
  | .create_case _ _ _ => some .case_created
  | .list_cases => some .case_list
  | .read_case _ => some .case_read
  | .list_documents _ => some .document_list
  | .read_document _ _ => some .document_read
  | .upload_document _ _ => some .document_uploaded
  | .list_events _ => some .event_list
  | .create_event _ _ => some .event_created
  | .create_note _ _ _ => some .event_note_created
  | _ => none

/-- The case a request is about: the one in its path, or the one it opened. -/
def Route.acted_on : Route Token → Reply Token → Option Uuid
  | .create_case _ _ _, .case_ c => some c.id
  | .read_case case_id, _ => some case_id
  | .list_documents case_id, _ => some case_id
  | .read_document case_id _, _ => some case_id
  | .upload_document case_id _, _ => some case_id
  | .list_events case_id, _ => some case_id
  | .create_event case_id _, _ => some case_id
  | .create_note case_id _ _, _ => some case_id
  | _, _ => none

def Route.lists_cases : Route Token → Bool
  | .list_cases => true
  | _ => false

/-- The detail counts the cases, documents, pages or events of the answer, or
    the pages stored; there is none where nothing is counted. -/
def Counted (before after : Database) (detail : Option (List (String × Nat))) :
    Reply Token → Prop
  | .cases cs => detail = some [("cases", cs.length)]
  | .documents ds => detail = some [("documents", ds.length)]
  | .document_detail _ pages => detail = some [("pages", pages.length)]
  | .events es => detail = some [("events", es.length)]
  | .document d => ∃ pages, after .document_page = before .document_page ++ pages ∧
      (∀ p ∈ pages, DocumentPage.document_id p = d.id) ∧ d.page_count = pages.length ∧
      detail = some [("pages", pages.length)]
  | _ => detail = none

/-- The audit row of a request that went through. -/
structure Audited (before after : Database) (account : UserAccount) (route : Route Token)
    (reply : Reply Token) (row : CaseAuditEvent) : Prop where
  actor : row.actor_user_id = some account.id
  action : route.action = some row.action
  case_id : row.case_id = route.acted_on reply
  null_only_for_list : row.case_id = none ↔ route.lists_cases = true
  owned : ∀ i, row.case_id = some i → ∃ c, Owns after account i c
  detail : Counted before after row.detail reply

/-- What the ownership dependencies of a route ask of the caller. -/
def PassesOwnership (db : Database) (account : UserAccount) : Route Token → Prop
  | .read_case case_id => ∃ c, Owns db account case_id c
  | .list_documents case_id => ∃ c, Owns db account case_id c
  | .read_document case_id document_id => (∃ c, Owns db account case_id c) ∧
      ∃ d ∈ db .document, Document.id d = document_id ∧ Document.case_id d = case_id
  | .upload_document case_id _ => ∃ c, Owns db account case_id c
  | .list_events case_id => ∃ c, Owns db account case_id c
  | .create_event case_id _ => ∃ c, Owns db account case_id c
  | .create_note case_id event_id _ => (∃ c, Owns db account case_id c) ∧
      ∃ e ∈ db .case_event, CaseEvent.id e = event_id ∧ CaseEvent.case_id e = case_id
  | _ => True

/-! ### What a request that went through did -/

section access
variable {account : UserAccount} {db db₁ : Database} {route : Route Token} {reply : Reply Token}
  {row : CaseAuditEvent}

theorem CaseAccess.passes (h : CaseAccess srv env account db route reply row db₁) :
    PassesOwnership db account route := by
  cases h with
  | create_case => trivial
  | list_cases => trivial
  | read_case case_id c hc => exact ⟨c, hc⟩
  | list_documents case_id c hc => exact ⟨c, hc⟩
  | read_document case_id document_id c hc d hd hid hin => exact ⟨⟨c, hc⟩, d, hd, hid, hin⟩
  | upload_document case_id upload c hc => exact ⟨c, hc⟩
  | list_events case_id c hc => exact ⟨c, hc⟩
  | create_event case_id body c hc => exact ⟨c, hc⟩
  | create_note case_id event_id body c hc e he hid hin => exact ⟨⟨c, hc⟩, e, he, hid, hin⟩

/-- The rows the request added besides the audit row are of other tables. -/
theorem CaseAccess.audit_table (h : CaseAccess srv env account db route reply row db₁) :
    db₁ .case_audit_event = db .case_audit_event := by
  cases h with
  | create_case => exact Schema.effect_insert_ne _ _ (by decide)
  | upload_document =>
    rw [with_pages, inserted_all_ne _ _ (by decide), with_job_ne (by decide),
      Schema.effect_insert_ne _ _ (by decide)]
  | create_event => exact Schema.effect_insert_ne _ _ (by decide)
  | create_note => exact Schema.effect_insert_ne _ _ (by decide)
  | list_cases => rfl
  | read_case => rfl
  | list_documents => rfl
  | read_document => rfl
  | list_events => rfl

/-- A case of the caller is still there once the request is done. -/
theorem CaseAccess.keeps_case (h : CaseAccess srv env account db route reply row db₁)
    {case_id : Uuid} {c : Case} (hc : Owns db account case_id c) : Owns db₁ account case_id c := by
  refine ⟨?_, hc.id, hc.owner⟩
  cases h with
  | create_case => exact Schema.mem_effect_insert.mpr (.inl hc.mem)
  | upload_document =>
    rw [with_pages, inserted_all_ne _ _ (by decide), with_job_ne (by decide),
      Schema.effect_insert_ne _ _ (by decide)]
    exact hc.mem
  | create_event =>
    rw [Schema.effect_insert_ne _ _ (by decide)]
    exact hc.mem
  | create_note =>
    rw [Schema.effect_insert_ne _ _ (by decide)]
    exact hc.mem
  | list_cases => exact hc.mem
  | read_case => exact hc.mem
  | list_documents => exact hc.mem
  | read_document => exact hc.mem
  | list_events => exact hc.mem

/-- The pages of an upload, counted. -/
theorem counted_upload (document : Document) (extraction : ExtractionResult)
    (hcount : document.page_count = (extraction.pages.length : Int)) (row : CaseAuditEvent) :
    Counted db (schema.effect (.insert .case_audit_event row)
        (with_pages env document extraction (page_rows env document.id extraction.pages) db))
      (some [("pages", extraction.pages.length)])
      (.document (document_response document) : Reply Token) := by
  have hlength : (page_rows env document.id extraction.pages).length = extraction.pages.length :=
    List.length_mapIdx
  refine ⟨page_rows env document.id extraction.pages, ?_, ?_, ?_, ?_⟩
  · rw [Schema.effect_insert_ne _ _ (by decide), with_pages, inserted_all_self,
      with_job_ne (by decide), Schema.effect_insert_ne _ _ (by decide)]
  · intro p hp
    obtain ⟨i, hi, rfl⟩ := List.mem_mapIdx.mp hp
    rfl
  · show document.page_count = _
    rw [hlength, hcount]
  · rw [hlength]

/-- The row of each route says what it should. -/
theorem CaseAccess.audited (h : CaseAccess srv env account db route reply row db₁) :
    Audited db (schema.effect (.insert .case_audit_event row) db₁) account route reply row := by
  -- the case it names is still the account's after the change
  have hkeep : ∀ {case_id c}, Owns db account case_id c → ∀ i, some case_id = some i →
      ∃ c, Owns (schema.effect (.insert .case_audit_event row) db₁) account i c := by
    intro case_id c hc i hi
    obtain rfl := Option.some.inj hi
    have hc₁ := h.keeps_case hc
    refine ⟨c, ?_, hc₁.id, hc₁.owner⟩
    rw [Schema.effect_insert_ne _ _ (by decide)]
    exact hc₁.mem
  cases h with
  | create_case title court case_number =>
    refine ⟨rfl, rfl, rfl, by simp [access_row, Route.lists_cases], ?_, rfl⟩
    intro i hi
    obtain rfl := Option.some.inj hi
    refine ⟨new_case env account title court case_number, ?_, rfl, rfl⟩
    rw [Schema.effect_insert_ne _ _ (by decide)]
    exact Schema.mem_effect_insert.mpr (.inr rfl)
  | list_cases =>
    refine ⟨rfl, rfl, rfl, by simp [access_row, Route.lists_cases], ?_, ?_⟩
    · intro i hi
      cases hi
    · simp [Counted, access_row]
  | read_case case_id c hc =>
    exact ⟨rfl, rfl, rfl, by simp [access_row, Route.lists_cases], hkeep hc, rfl⟩
  | list_documents case_id c hc =>
    refine ⟨rfl, rfl, rfl, by simp [access_row, Route.lists_cases], hkeep hc, ?_⟩
    simp [Counted, access_row]
  | read_document case_id document_id c hc d hd hid hin =>
    refine ⟨rfl, rfl, rfl, by simp [access_row, Route.lists_cases], hkeep hc, ?_⟩
    simp [Counted, access_row]
  | upload_document case_id upload c hc source extraction hread =>
    refine ⟨rfl, rfl, rfl, by simp [access_row, Route.lists_cases], hkeep hc, ?_⟩
    exact counted_upload _ extraction rfl _
  | list_events case_id c hc =>
    refine ⟨rfl, rfl, rfl, by simp [access_row, Route.lists_cases], hkeep hc, ?_⟩
    simp [Counted, access_row]
  | create_event case_id body c hc =>
    exact ⟨rfl, rfl, rfl, by simp [access_row, Route.lists_cases], hkeep hc, rfl⟩
  | create_note case_id event_id body c hc e he hid hin =>
    exact ⟨rfl, rfl, rfl, by simp [access_row, Route.lists_cases], hkeep hc, rfl⟩

end access

/-! ### The guarantee -/

/-- **Access is audited.** Whatever fails, and wherever it fails, a case request
    leaves the committed rows as they were, or succeeds and adds one audit row
    that says what happened. A caller the ownership dependencies turn away adds
    none. -/
theorem access_commits_with_audit {req : Request Token} (hroute : req.route.on_cases = true)
    (env : Env) (w : Committed) :
    ((serve srv env req w).2.db = w.db ∨
      ∃ auth reply row, SignedIn srv env req.credentials w.db auth ∧
        (serve srv env req w).1 = .success req.route.success_status reply ∧
        (serve srv env req w).2.db .case_audit_event = w.db .case_audit_event ++ [row] ∧
        Audited w.db (serve srv env req w).2.db auth.account req.route reply row) ∧
    ((∀ auth, SignedIn srv env req.credentials w.db auth →
        ¬ PassesOwnership w.db auth.account req.route) →
      (serve srv env req w).1.refuses ∧ (serve srv env req w).2.db = w.db) := by
  rcases @serve_on_cases _ srv env _ hroute w with
    ⟨auth, reply, row, db, hauth, hacc, hresp, hdb⟩ | ⟨hrefused, hdb⟩
  · constructor
    · refine .inr ⟨auth, reply, row, hauth, hresp, ?_, ?_⟩
      · rw [hdb, Schema.effect_insert_self, hacc.audit_table]
      · rw [hdb]
        exact hacc.audited
    · intro hturned
      exact absurd hacc.passes (hturned auth hauth)
  · exact ⟨.inl hdb, fun _ => ⟨hrefused, hdb⟩⟩

/-- The timeline of the case of `filed`, read by its owner. -/
def timeline_read : Request Payload := ⟨Sample.bearer (101 * second), .list_events 12288#128⟩

/-- Reading it succeeds, and adds a row for its owner. -/
theorem timeline_read_audited :
    ∃ auth reply row, SignedIn Sample.server (Sample.env 5 (104 * second))
        timeline_read.credentials filed.world.db auth ∧
      (serve Sample.server (Sample.env 5 (104 * second)) timeline_read filed.world).1 =
        .success 200 reply ∧
      Audited filed.world.db
        (serve Sample.server (Sample.env 5 (104 * second)) timeline_read filed.world).2.db
        auth.account timeline_read.route reply row := by
  have hread := (@access_commits_with_audit _ Sample.server timeline_read rfl
    (Sample.env 5 (104 * second)) filed.world).1
  rcases hread with hsame | ⟨auth, reply, row, hauth, hresp, _, haudited⟩
  · have hadded : (serve Sample.server (Sample.env 5 (104 * second)) timeline_read
        filed.world).2.db .case_audit_event ≠ filed.world.db .case_audit_event := by
      decide +kernel
    exact absurd (congrFun hsame .case_audit_event) hadded
  · exact ⟨auth, reply, row, hauth, hresp, haudited⟩

end CounselReady