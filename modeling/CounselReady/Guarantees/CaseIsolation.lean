import CounselReady.Specs.Abreast
import CounselReady.Guarantees.AccessAudit

/-! # Case Files Apart

    Two runs of the server that agree on one account's rows and blobs cannot be
    told apart by that account: whatever it asks of a case, a document or a
    timeline, both answer the same, and do the same to its rows. What another
    account has is not looked at and not touched, so an id that belongs to somebody
    else is answered as one that never was.
-/

namespace CounselReady

open Relational Framework Handler Prog

variable {Token : Type} {srv : Server Token} {env : Env} {A : Uuid}

/-! ### The same for both -/

/-- A row that is the account's: by the keys of its table, or an OCR job of one of the
    account's documents. -/
def WrittenFor (db : Database) (A : Uuid) : (t : Table) → Row t → Prop
  | .job, (j : Job) => ∃ d ∈ db .document, OwnedBy db A .document d ∧ j.payload = (Document.id d).str
  | t, r => OwnedBy db A t r

/-- The answers are the same; the same rows have been added, all of them the account's;
    its blobs are the same, and no other blob has changed. -/
structure SameForBoth (srv : Server Token) (env : Env) (req : Request Token) (A : Uuid)
    (w₁ w₂ : Committed) : Prop where
  response : (serve srv env req w₁).1 = (serve srv env req w₂).1
  rows : ∃ added, (serve srv env req w₁).2.db = grown w₁.db added ∧
    (serve srv env req w₂).2.db = grown w₂.db added ∧
    ∀ t, ∀ r ∈ added t, WrittenFor (serve srv env req w₁).2.db A t r ∧
      WrittenFor (serve srv env req w₂).2.db A t r
  blobs : ∀ key, KeyOf w₁.db A key →
    (serve srv env req w₁).2.ext.store key = (serve srv env req w₂).2.ext.store key
  others : ∀ key, ¬ KeyOf w₁.db A key →
    (serve srv env req w₁).2.ext.store key = w₁.ext.store key ∧
      (serve srv env req w₂).2.ext.store key = w₂.ext.store key

namespace Route

def case_in_path : Route Token → Option Uuid
  | .read_case case_id => some case_id
  | .list_documents case_id => some case_id
  | .read_document case_id _ => some case_id
  | .upload_document case_id _ => some case_id
  | .list_events case_id => some case_id
  | .create_event case_id _ => some case_id
  | .create_note case_id _ _ => some case_id
  | _ => none

/-- The same request with another case in its path. -/
def with_case (case_id : Uuid) : Route Token → Route Token
  | .read_case _ => .read_case case_id
  | .list_documents _ => .list_documents case_id
  | .read_document _ document_id => .read_document case_id document_id
  | .upload_document _ upload => .upload_document case_id upload
  | .list_events _ => .list_events case_id
  | .create_event _ body => .create_event case_id body
  | .create_note _ event_id body => .create_note case_id event_id body
  | route => route

/-- The same request with another document, or another entry, in its path. -/
def with_item (id : Uuid) : Route Token → Route Token
  | .read_document case_id _ => .read_document case_id id
  | .create_note case_id _ body => .create_note case_id id body
  | route => route

/-- The document or the entry in the path is one of the case in the path. -/
def ItemWithin (db : Database) : Route Token → Prop
  | .read_document case_id document_id =>
      ∃ d ∈ db .document, Document.id d = document_id ∧ Document.case_id d = case_id
  | .create_note case_id event_id _ =>
      ∃ e ∈ db .case_event, CaseEvent.id e = event_id ∧ CaseEvent.case_id e = case_id
  | _ => True

end Route

/-- The account has a case with this id. -/
def HasCase (db : Database) (A case_id : Uuid) : Prop :=
  ∃ c ∈ db .case_, Case.id c = case_id ∧ Case.owner_id c = A

/-- An id in the path that is not the account's, or not of the case in the path, is
    answered as any other such id. -/
structure AsIfNeverExisted (srv : Server Token) (env : Env) (req : Request Token) (A : Uuid)
    (w : Committed) : Prop where
  foreign_case : ∀ i, req.route.case_in_path = some i → ¬ HasCase w.db A i →
    ∀ case_id, ¬ HasCase w.db A case_id →
      serve srv env req w = serve srv env ⟨req.credentials, req.route.with_case case_id⟩ w
  foreign_item : ¬ req.route.ItemWithin w.db →
    ∀ id, ¬ (req.route.with_item id).ItemWithin w.db →
      serve srv env req w = serve srv env ⟨req.credentials, req.route.with_item id⟩ w

/-! ### The nine routes -/

section routes
variable {credentials : Option Token} {w₁ w₂ : Committed}

/-- **Same course.** One case for each route. -/
theorem reads_on_cases {req : Request Token} (hroute : req.route.on_cases = true)
    (h : Setting srv env req.credentials A w₁ w₂) :
    Reads env A w₁ w₂ (respond srv env req) := by
  obtain ⟨credentials, route⟩ := req
  cases route <;> try exact absurd hroute Bool.false_ne_true
  case create_case title court case_number =>
    refine reads_current_user_bind h fun account hid => ?_
    refine reads_require_bind h.start fun _ => ?_
    refine reads_require_bind h.start fun _ => ?_
    refine reads_require_bind h.start fun _ => ?_
    refine Writes.reads (writes_bind (writes_insert (h.admits_case hid _ _ _)) fun _ => ?_) h.start
    refine writes_audit h hid 1 _ _ ?_ _
    -- the case is in neither state: it is the row just added
    intro j hj
    obtain rfl : env.uuid 0 = j := Option.some.inj hj
    exact h.drawn .case_ 0
  case list_cases =>
    refine reads_current_user_bind h fun account hid => ?_
    refine reads_select_bind h.start (hid ▸ h.cases) ?_
    exact (writes_audit h hid 0 _ _ (fun j hj => by cases hj) _).reads h.start
  case read_case case_id =>
    refine reads_current_user_bind h fun account hid => ?_
    refine reads_owned_case_bind h hid fun c hc => ?_
    exact (writes_case_audit h hid 0 hc _ _ _).reads h.start
  case list_documents case_id =>
    refine reads_current_user_bind h fun account hid => ?_
    refine reads_owned_case_bind h hid fun c hc => ?_
    refine reads_select_bind h.start (hc.documents h) ?_
    exact (writes_case_audit h hid 0 hc _ _ _).reads h.start
  case read_document case_id document_id =>
    refine reads_current_user_bind h fun account hid => ?_
    refine reads_owned_case_bind h hid fun c hc => ?_
    refine reads_owned_document_bind h hc fun d hd hcase => ?_
    refine reads_select_bind h.start (hd.pages h) ?_
    refine reads_select_bind h.start h.no_passages ?_
    rw [hcase]
    exact (writes_case_audit h hid 0 hc _ _ _).reads h.start
  case upload_document case_id upload =>
    refine reads_current_user_bind h fun account hid => ?_
    refine reads_owned_case_bind h hid fun c hc => ?_
    refine reads_idle_bind ((every_rethrow _ _).mpr (idle_read_bounded upload)) h.start
      fun data => ?_
    refine reads_some_or_bind h.start fun source _ => ?_
    refine reads_bind (reads_rethrow (reads_ingest_document h hc rfl)) fun document => ?_
    exact writes_case_audit h hid 2 hc _ _ _
  case list_events case_id =>
    refine reads_current_user_bind h fun account hid => ?_
    refine reads_owned_case_bind h hid fun c hc => ?_
    refine reads_select_bind h.start (hc.events h) ?_
    -- no entry cites a passage, so only the notes are looked up
    have hentries : ∀ e ∈ order_by chronological
        ((w₁.db .case_event).filter (fun e : CaseEvent => e.case_id == c.id)),
        EntryOf A w₁ w₂ e := by
      intro e he
      obtain ⟨he₁, hcase⟩ := List.mem_filter.mp (mem_order_by.mp he)
      exact hc.entry h he₁ (beq_iff_eq.mp hcase)
    unfold load_related
    simp only [do_assoc]
    refine reads_select_bind h.start h.no_passages ?_
    have hnone : (w₁.db .passage) = [] := (h.ready w₁ (by simp)).one_owner.passages
    simp only [hnone, List.filter_nil, List.map_nil, List.contains_nil]
    refine reads_select_bind h.start (same_on_unseen fun _ _ _ _ => rfl) ?_
    refine reads_select_bind h.start (same_on_unseen fun _ _ _ _ => ?_) ?_
    · simp
    refine reads_select_bind h.start (h.notes hentries) ?_
    exact (writes_case_audit h hid 0 hc _ _ _).reads h.start
  case create_event case_id body =>
    refine reads_current_user_bind h fun account hid => ?_
    refine reads_owned_case_bind h hid fun c hc => ?_
    refine reads_require_bind h.start fun _ => ?_
    refine Writes.reads (writes_bind (writes_insert (h.admits_event hid hc body)) fun _ => ?_)
      h.start
    exact writes_case_audit h hid 1 hc _ _ _
  case create_note case_id event_id body =>
    refine reads_current_user_bind h fun account hid => ?_
    refine reads_owned_case_bind h hid fun c hc => ?_
    refine reads_owned_event_bind h hc fun e he => ?_
    refine reads_require_bind h.start fun _ => ?_
    refine Writes.reads (writes_bind (writes_insert (h.admits_note hid he body)) fun _ => ?_)
      h.start
    exact writes_case_audit h hid 1 hc _ _ _

end routes

/-! ### Whose rows are added -/

section written
variable {account : UserAccount} {db db₁ : Database} {route : Route Token} {reply : Reply Token}
  {row : CaseAuditEvent} {t : Table} {r : Row t}

/-- A row after an INSERT was there, or is the one inserted. -/
theorem inserted_row {t' : Table} {row' : Row t'} {P : (t : Table) → Row t → Prop}
    (hold : ∀ t, ∀ r ∈ db t, P t r) (hnew : P t' row') :
    ∀ t, ∀ r ∈ schema.effect (.insert t' row') db t, P t r := by
  intro t r hr
  by_cases htt : t' = t
  · subst htt
    rcases Schema.mem_effect_insert.mp hr with hr₀ | rfl
    · exact hold _ r hr₀
    · exact hnew
  · rw [Schema.effect_insert_ne _ _ htt] at hr
    exact hold t r hr

/-- What an upload adds is the document, its job and its pages. -/
theorem CaseAccess.written_upload {case_id : Uuid} {upload : Upload} {c : Case}
    (hc : Owns db account case_id c) {source : IngestSource} {extraction : ExtractionResult}
    (haudit : row.actor_user_id = some account.id) :
    ∀ t, ∀ r ∈ schema.effect (.insert .case_audit_event row)
        (with_pages env (uploaded_document srv env case_id upload source extraction) extraction
          (page_rows env (env.uuid 0) extraction.pages) db) t,
      r ∈ db t ∨ WrittenFor (schema.effect (.insert .case_audit_event row)
        (with_pages env (uploaded_document srv env case_id upload source extraction) extraction
          (page_rows env (env.uuid 0) extraction.pages) db)) account.id t r := by
  let document := uploaded_document srv env case_id upload source extraction
  let pages := page_rows env (env.uuid 0) extraction.pages
  let after := schema.effect (.insert .case_audit_event row)
    (with_pages env document extraction pages db)
  have hcase : c ∈ after .case_ := by
    have hsame : after .case_ = db .case_ := by
      show schema.effect _ _ .case_ = _
      rw [Schema.effect_insert_ne _ _ (by decide), with_pages, inserted_all_ne _ _ (by decide),
        with_job_ne (by decide), Schema.effect_insert_ne _ _ (by decide)]
    rw [hsame]
    exact hc.mem
  have hdocument : document ∈ after .document := by
    show document ∈ schema.effect _ _ .document
    rw [Schema.effect_insert_ne _ _ (by decide), with_pages, inserted_all_ne _ _ (by decide),
      with_job_ne (by decide)]
    exact Schema.mem_effect_insert.mpr (.inr rfl)
  have hown : OwnedBy after account.id .document document := ⟨c, hcase, hc.id, hc.owner⟩
  -- the rows in the order they are written
  refine inserted_row (P := fun t r => r ∈ db t ∨ WrittenFor after account.id t r) ?_ (.inr haudit)
  intro t r hr
  by_cases hpage : .document_page = t
  · subst hpage
    rw [with_pages, inserted_all_self, with_job_ne (by decide),
      Schema.effect_insert_ne _ _ (by decide)] at hr
    rcases List.mem_append.mp hr with hold | hnew
    · exact .inl hold
    · obtain ⟨i, hi, rfl⟩ := List.mem_mapIdx.mp hnew
      exact .inr ⟨document, hdocument, rfl, c, hcase, hc.id, hc.owner⟩
  · rw [with_pages, inserted_all_ne _ _ hpage] at hr
    have hrow : ∀ t, ∀ r ∈ schema.effect (.insert .document document) db t,
        r ∈ db t ∨ WrittenFor after account.id t r :=
      inserted_row (fun _ _ hr => .inl hr) (.inr hown)
    unfold with_job at hr
    split at hr
    · refine inserted_row (P := fun t r => r ∈ db t ∨ WrittenFor after account.id t r) hrow
        (.inr ?_) t r hr
      exact ⟨document, hdocument, hown, rfl⟩
    · exact hrow t r hr

/-- Every row a case request adds is the caller's. -/
theorem CaseAccess.written (h : CaseAccess srv env account db route reply row db₁) :
    ∀ t, ∀ r ∈ schema.effect (.insert .case_audit_event row) db₁ t, r ∈ db t ∨
      WrittenFor (schema.effect (.insert .case_audit_event row) db₁) account.id t r := by
  have hactor : row.actor_user_id = some account.id := h.audited.actor
  cases h with
  | upload_document case_id upload c hc source extraction =>
    exact CaseAccess.written_upload hc hactor
  | create_case =>
    exact inserted_row (P := fun t r => r ∈ db t ∨ WrittenFor _ account.id t r)
      (inserted_row (fun _ _ hr => .inl hr) (.inr rfl)) (.inr hactor)
  | create_event =>
    exact inserted_row (P := fun t r => r ∈ db t ∨ WrittenFor _ account.id t r)
      (inserted_row (fun _ _ hr => .inl hr) (.inr rfl)) (.inr hactor)
  | create_note =>
    exact inserted_row (P := fun t r => r ∈ db t ∨ WrittenFor _ account.id t r)
      (inserted_row (fun _ _ hr => .inl hr) (.inr rfl)) (.inr hactor)
  | list_cases => exact inserted_row (fun _ _ hr => .inl hr) (.inr hactor)
  | read_case => exact inserted_row (fun _ _ hr => .inl hr) (.inr hactor)
  | list_documents => exact inserted_row (fun _ _ hr => .inl hr) (.inr hactor)
  | read_document => exact inserted_row (fun _ _ hr => .inl hr) (.inr hactor)
  | list_events => exact inserted_row (fun _ _ hr => .inl hr) (.inr hactor)

/-- The rows added to a state by a request of the account. -/
theorem serve_written {w : Committed} {req : Request Token} (hroute : req.route.on_cases = true)
    (hready : Ready srv env req.credentials A w) {added : Database}
    (hadded : (serve srv env req w).2.db = grown w.db added) :
    ∀ t, ∀ r ∈ added t, WrittenFor (serve srv env req w).2.db A t r := by
  intro t r hr
  have hafter : schema.Consistent (serve srv env req w).2.db :=
    Step.consistent (s := .request env req) hready.consistent
  have hmem : r ∈ (serve srv env req w).2.db t := by
    rw [hadded]
    exact List.mem_append_right _ hr
  -- a row that was there before is not added again: its key is taken
  have hnew : r ∉ w.db t := by
    intro hold
    have hpks := hafter.distinct t
    rw [hadded] at hpks
    exact (List.pairwise_append.mp hpks).2.2 r hold r hr rfl
  rcases @serve_on_cases _ srv env _ hroute w with
    ⟨auth, reply, row, db, hauth, hacc, _, hdb⟩ | ⟨_, hdb⟩
  · obtain ⟨token, htoken, claims, hclaims, huser, _⟩ := hauth.token
    have hid : auth.account.id = A :=
      huser.symm.trans (hready.token token htoken claims hclaims).1
    rw [hdb] at hmem ⊢
    rcases hacc.written t r hmem with hold | hwritten
    · exact absurd hold hnew
    · rw [← hid]
      exact hwritten
  · rw [hdb] at hmem
    exact absurd hmem hnew

end written

/-! ### Ids that are not the account's -/

section foreign
variable {credentials : Option Token} {w : Committed} {s : Session} {α : Type}

/-- Refused in one state, by whatever program: the ending of both. -/
abbrev Refused : Except Exc α → Session → Session → Prop :=
  fun r t₁ t₂ => t₁ = t₂ ∧ ∃ e, r = .error e

/-- Two requests that are refused alike are answered alike, and leave the same. -/
theorem serve_refused_alike {req req' : Request Token}
    (h : wp₂ (perform schema run_ext) (respond srv env req) (respond srv env req') Refused
      (w.begin env) (w.begin env)) : serve srv env req w = serve srv env req' w := by
  obtain ⟨hsame, hend, e, he⟩ := h
  unfold serve get_session transact
  unfold Committed.begin at hsame hend he
  rw [Committed.met_db]
  generalize (respond srv env req).exec (perform schema run_ext) _ = x at hsame hend he ⊢
  generalize (respond srv env req').exec (perform schema run_ext) _ = x' at hsame hend ⊢
  obtain ⟨r, t⟩ := x
  obtain ⟨r', t'⟩ := x'
  dsimp only at hsame hend he
  subst hsame hend he
  cases e <;> rfl

theorem wps_current_user : wps (current_user srv env credentials) (fun r t => t = s ∧
    ∀ a, r = .ok a → ∃ auth, SignedIn srv env credentials s.db auth ∧ auth.account = a) s := by
  rw [← Prog.bind_ret (current_user srv env credentials)]
  refine wps_current_user_bind (fun e => ⟨rfl, fun a ha => by cases ha⟩) fun auth hauth => ?_
  refine (wp_pure _).mpr ⟨rfl, fun a ha => ?_⟩
  cases ha
  exact ⟨auth, hauth, rfl⟩

/-- Past the gate it is the account that asks. -/
theorem refused_past_gate (hby : ∀ token, credentials = some token → ∀ claims,
      decode_access_token srv token env.now = some claims → claims.user_id = A)
    {f f' : UserAccount → Handler α}
    (h : ∀ account : UserAccount, account.id = A →
      wp₂ (perform schema run_ext) (f account) (f' account) Refused s s) :
    wp₂ (perform schema run_ext) (current_user srv env credentials >>= f)
      (current_user srv env credentials >>= f') Refused s s := by
  refine wp₂_bind (wp₂_self (wps_mono wps_current_user ?_))
  rintro r t ⟨rfl, hr⟩
  cases r with
  | error e => exact ⟨rfl, e, rfl⟩
  | ok a =>
    obtain ⟨auth, hauth, rfl⟩ := hr a rfl
    obtain ⟨token, htoken, claims, hclaims, huser, _⟩ := hauth.token
    exact h _ (huser.symm.trans (hby token htoken claims hclaims))

theorem wps_select_one_none {t : Table} {p : Row t → Bool} (hnone : ∀ r ∈ s.db t, p r = false) :
    wps (select_one t p) (fun r t' => r = .ok none ∧ t' = s) s := by
  refine wps_select_one (fun _ => ⟨rfl, rfl⟩) (fun r hr hp => ?_) fun hmany => ?_
  · rw [hnone r hr] at hp
    cases hp
  · have hnil : (s.db t).filter p = [] := by
      rw [List.filter_eq_nil_iff]
      intro r hr
      simp [hnone r hr]
    rw [hnil] at hmany
    cases hmany

theorem wps_foreign_case {account : UserAccount} (hid : account.id = A) {case_id : Uuid}
    (hforeign : ¬ HasCase s.db A case_id) (f : Case → Handler α) :
    wps (owned_case account case_id >>= f)
      (fun r t => r = .error case_not_found ∧ t = s) s := by
  refine wps_bind (wps_bind (wps_mono (wps_select_one_none ?_) ?_))
  · intro c hc
    rw [Bool.eq_false_iff]
    intro hp
    obtain ⟨hcid, howner⟩ := Bool.and_eq_true_iff.mp hp
    exact hforeign ⟨c, hc, beq_iff_eq.mp hcid, (beq_iff_eq.mp howner).trans hid⟩
  · rintro r t ⟨rfl, rfl⟩
    exact wps_some_or.mpr ⟨fun _ h => (by cases h), fun _ => ⟨rfl, rfl⟩⟩

/-- No case of the account, twice: the same 404. -/
theorem refused_foreign_case (hby : ∀ token, credentials = some token → ∀ claims,
      decode_access_token srv token env.now = some claims → claims.user_id = A)
    {i j : Uuid} (hi : ¬ HasCase s.db A i) (hj : ¬ HasCase s.db A j)
    (f f' : UserAccount → Case → Handler α) :
    wp₂ (perform schema run_ext)
      (current_user srv env credentials >>= fun account => owned_case account i >>= f account)
      (current_user srv env credentials >>= fun account => owned_case account j >>= f' account)
      Refused s s := by
  refine refused_past_gate hby fun account hid => ?_
  exact wp₂_of_ends (wps_foreign_case hid hi _) (wps_foreign_case hid hj _) ⟨rfl, _, rfl⟩

/-- A case of the account, and nothing under either id in it: the same 404. -/
theorem refused_foreign_item (hby : ∀ token, credentials = some token → ∀ claims,
      decode_access_token srv token env.now = some claims → claims.user_id = A)
    {case_id : Uuid} (e : Exc) {f f' : UserAccount → Case → Handler α}
    (h : ∀ account (c : Case), c.id = case_id →
      wps (f account c) (fun r t => r = .error e ∧ t = s) s ∧
        wps (f' account c) (fun r t => r = .error e ∧ t = s) s) :
    wp₂ (perform schema run_ext)
      (current_user srv env credentials >>= fun account =>
        owned_case account case_id >>= f account)
      (current_user srv env credentials >>= fun account =>
        owned_case account case_id >>= f' account) Refused s s := by
  refine refused_past_gate hby fun account _ => wp₂_bind (wp₂_self ?_)
  rw [← Prog.bind_ret (owned_case account case_id)]
  refine wps_owned_case_bind (fun e => ⟨rfl, e, rfl⟩) fun c hc => (wp_pure _).mpr ?_
  obtain ⟨hf, hf'⟩ := h account c hc.id
  exact wp₂_of_ends hf hf' ⟨rfl, e, rfl⟩

theorem wps_foreign_document {c : Case} {document_id : Uuid}
    (hforeign : ¬ ∃ d ∈ s.db .document, Document.id d = document_id ∧ Document.case_id d = c.id)
    (f : Document → Handler α) : wps (owned_document c document_id >>= f)
      (fun r t => r = .error document_not_found ∧ t = s) s := by
  refine wps_bind (wps_bind (wps_mono (wps_select_one_none ?_) ?_))
  · intro d hd
    rw [Bool.eq_false_iff]
    intro hp
    obtain ⟨hid, hcase⟩ := Bool.and_eq_true_iff.mp hp
    exact hforeign ⟨d, hd, beq_iff_eq.mp hid, beq_iff_eq.mp hcase⟩
  · rintro r t ⟨rfl, rfl⟩
    exact wps_some_or.mpr ⟨fun _ h => (by cases h), fun _ => ⟨rfl, rfl⟩⟩

theorem wps_foreign_event {c : Case} {event_id : Uuid}
    (hforeign : ¬ ∃ e ∈ s.db .case_event, CaseEvent.id e = event_id ∧ CaseEvent.case_id e = c.id)
    (f : CaseEvent → Handler α) : wps (owned_event c event_id >>= f)
      (fun r t => r = .error event_not_found ∧ t = s) s := by
  refine wps_bind (wps_bind (wps_mono (wps_select_one_none ?_) ?_))
  · intro e he
    rw [Bool.eq_false_iff]
    intro hp
    obtain ⟨hid, hcase⟩ := Bool.and_eq_true_iff.mp hp
    exact hforeign ⟨e, he, beq_iff_eq.mp hid, beq_iff_eq.mp hcase⟩
  · rintro r t ⟨rfl, rfl⟩
    exact wps_some_or.mpr ⟨fun _ h => (by cases h), fun _ => ⟨rfl, rfl⟩⟩

/-- **Unknown ids.** Every route with an id in its path. -/
theorem as_if_never_existed {req : Request Token} (hby : ActsAs srv env req A) :
    AsIfNeverExisted srv env req A w := by
  obtain ⟨credentials, route⟩ := req
  constructor
  · intro i hi hforeign j hj
    cases route
    case read_case | list_documents | read_document | upload_document | list_events
        | create_event | create_note =>
      obtain rfl := Option.some.inj hi
      exact serve_refused_alike (refused_foreign_case hby hforeign hj _ _)
    all_goals cases hi
  · intro hforeign j hj
    cases route
    case read_document case_id document_id =>
      refine serve_refused_alike (refused_foreign_item hby document_not_found
        fun account c hc => ?_)
      subst hc
      refine ⟨wps_foreign_document ?_ _, wps_foreign_document ?_ _⟩
      · exact hforeign
      · exact hj
    case create_note case_id event_id body =>
      refine serve_refused_alike (refused_foreign_item hby event_not_found fun account c hc => ?_)
      subst hc
      refine ⟨wps_foreign_event ?_ _, wps_foreign_event ?_ _⟩
      · exact hforeign
      · exact hj
    all_goals exact absurd trivial hforeign

end foreign

/-! ### The guarantee -/

/-- **Run.** Whatever has been signed for a session names its owner. -/
theorem Reaches.owners_signed {h : History Token} (hr : Reaches srv (Honest srv) .start h) :
    OwnersSigned h.world := by
  refine hr.invariant (I := fun h => OwnersSigned h.world) ?_ ?_
  · intro p hp
    cases hp
  · intro h s hreach hw hs
    cases s with
    | request env req =>
      refine serve_owners req hreach.consistent hw ⟨?_, fun p hp => hs.1.signed p hp 0⟩
      intro us hus
      exact hs.1.ids h.world h.world_mem_worlds .user_session us hus 0
    | ocr env document_id engine => exact ocr_owners srv hw

theorem Reaches.ready {h : History Token} (hr : Reaches srv (Honest srv) .start h)
    {req : Request Token} (hhonest : Honest srv h (.request env req))
    (hby : ActsAs srv env req A) : Ready srv env req.credentials A h.world where
  consistent := hr.consistent
  one_owner := hr.oneOwner
  fresh := hhonest.1.ids h.world h.world_mem_worlds
  token := by
    intro token htoken claims hclaims
    have huser := hby token htoken claims hclaims
    refine ⟨huser, fun us hus hid => ?_⟩
    obtain ⟨p, hdecode, _, hsub, hsid, _⟩ := decode_access_token_eq_some.mp hclaims
    have hpresented : token ∈ req.presented :=
      List.mem_append_left _ (by rw [htoken]; exact List.mem_singleton_self token)
    have hsigned := hhonest.2 token hpresented p hdecode
    rw [hr.owners_signed p hsigned _ hsid us hus hid, hsub, huser]

/-- **Isolation.** Two runs of the server that agree on an account's rows and blobs, and a
    request of that account to a case, document or timeline route, made of both with the
    same clock and the same new ids: both answer the same, both add the same rows, all of
    them the account's, and its blobs stay the same in both; no row and no blob of anyone
    else changes. An id in the path that is another account's, or of another case, is
    answered as any id that never was. -/
theorem case_files_isolated {h₁ h₂ : History Token} (hr₁ : Reaches srv (Honest srv) .start h₁)
    (hr₂ : Reaches srv (Honest srv) .start h₂) {req : Request Token}
    (hroute : req.route.on_cases = true) (hby : ActsAs srv env req A)
    (hhonest₁ : Honest srv h₁ (.request env req)) (hhonest₂ : Honest srv h₂ (.request env req))
    (hagree : AgreeOn A h₁.world h₂.world) :
    SameForBoth srv env req A h₁.world h₂.world ∧ AsIfNeverExisted srv env req A h₁.world := by
  have hready₁ := hr₁.ready hhonest₁ hby
  have hready₂ := hr₂.ready hhonest₂ hby
  have hsetting : Setting srv env req.credentials A h₁.world h₂.world := by
    refine ⟨fun w hw => ?_, hagree⟩
    rcases List.mem_pair.mp hw with rfl | rfl
    · exact hready₁
    · exact hready₂
  obtain ⟨hanswer, ⟨added, hadded₁, hadded₂⟩, hout⟩ :=
    (reads_on_cases hroute hsetting).get_session
  refine ⟨⟨congrArg (answer req.route) hanswer, ⟨added, hadded₁, hadded₂, ?_⟩,
    hout.blobs, hout.others⟩, as_if_never_existed hby⟩
  intro t r hr
  exact ⟨serve_written hroute hready₁ hadded₁ t r hr, serve_written hroute hready₂ hadded₂ t r hr⟩

/-- An account files a document, and a second account signs in, latest line first. -/
def two_accounts : List Sample.Line :=
  [⟨6, 105 * second, ⟨none, .login "b@x.org" "another horse"⟩⟩,
   ⟨5, 104 * second, ⟨none, .register "b@x.org" "another horse" none⟩⟩,
   ⟨4, 103 * second, ⟨Sample.bearer (101 * second), .upload_document 12288#128 one_page⟩⟩,
   ⟨3, 102 * second, ⟨Sample.bearer (101 * second), .create_case "In re A" none none⟩⟩,
   ⟨2, 101 * second, ⟨none, .login "a@x.org" "correct horse"⟩⟩,
   ⟨1, 100 * second, ⟨none, .register "a@x.org" "correct horse" none⟩⟩]

/-- The second account opens a case of its own. -/
def their_case : Sample.Line :=
  ⟨7, 106 * second, ⟨some (access_claims 20480#128 24576#128 (105 * second)),
    .create_case "In re B" none none⟩⟩

/-- The first reads its document. -/
def own_document : Request Payload :=
  ⟨Sample.bearer (101 * second), .read_document 12288#128 16384#128⟩

instance : (t : Table) → DecidableEq (Row t)
  | .user_account => inferInstanceAs (DecidableEq UserAccount)
  | .user_session => inferInstanceAs (DecidableEq UserSession)
  | .used_refresh_token => inferInstanceAs (DecidableEq UsedRefreshToken)
  | .auth_event => inferInstanceAs (DecidableEq AuthEvent)
  | .case_ => inferInstanceAs (DecidableEq Case)
  | .case_audit_event => inferInstanceAs (DecidableEq CaseAuditEvent)
  | .party => inferInstanceAs (DecidableEq Party)
  | .document => inferInstanceAs (DecidableEq Document)
  | .document_page => inferInstanceAs (DecidableEq DocumentPage)
  | .passage => inferInstanceAs (DecidableEq Passage)
  | .extracted_fact => inferInstanceAs (DecidableEq ExtractedFact)
  | .case_event => inferInstanceAs (DecidableEq CaseEvent)
  | .case_event_note => inferInstanceAs (DecidableEq CaseEventNote)
  | .user_mfa => inferInstanceAs (DecidableEq UserMfa)
  | .recovery_code => inferInstanceAs (DecidableEq RecoveryCode)
  | .passkey => inferInstanceAs (DecidableEq Passkey)
  | .passkey_challenge => inferInstanceAs (DecidableEq PasskeyChallenge)
  | .job => inferInstanceAs (DecidableEq Job)

/-- It cannot tell whether the second has opened the case. -/
theorem second_account_unseen :
    SameForBoth Sample.server (Sample.env 8 (107 * second)) own_document 4096#128
        (Sample.play two_accounts).world (Sample.play (their_case :: two_accounts)).world ∧
      AsIfNeverExisted Sample.server (Sample.env 8 (107 * second)) own_document 4096#128
        (Sample.play two_accounts).world := by
  have hhonest : Sample.honest
      (⟨8, 107 * second, own_document⟩ :: their_case :: two_accounts) = true := by decide +kernel
  have hhonest' : Sample.honest (⟨8, 107 * second, own_document⟩ :: two_accounts) = true := by
    decide +kernel
  have hearlier : Sample.honest (their_case :: two_accounts) = true :=
    (Bool.and_eq_true_iff.mp hhonest).1
  refine case_files_isolated (Sample.reaches_play (Bool.and_eq_true_iff.mp hearlier).1)
    (Sample.reaches_play hearlier) rfl ?_ (Sample.honest_line hhonest')
    (Sample.honest_line hhonest) ⟨?_, ?_⟩
  · intro token htoken claims hclaims
    obtain rfl : access_claims 4096#128 8192#128 (101 * second) = token :=
      Option.some.inj htoken
    -- the token names the first account
    have hdecode : decode_access_token Sample.server
        (access_claims 4096#128 8192#128 (101 * second)) (107 * second) =
        some ⟨4096#128, 8192#128, timestamp (101 * second + access_token_ttl) * second⟩ := by
      decide +kernel
    obtain rfl := Option.some.inj (hdecode.symm.trans hclaims)
    rfl
  · decide +kernel
  · intro key _
    obtain ⟨_, hunmoved⟩ := Step.run_unmoved (s := their_case.step) Sample.server rfl
      (Sample.play two_accounts).world
    exact (congrFun hunmoved.store key).symm

end CounselReady
