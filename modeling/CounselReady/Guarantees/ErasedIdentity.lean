import CounselReady.Guarantees.DocumentBytes

/-! # Identity After a Deletion

    `delete_account` removes the account's row; what hangs off it cascades, and
    the audit rows stay with their account columns cleared. What it does not
    clear is `auth_event.email`.

    * No row names the deleted account's id: keys are drawn once, and references
      have targets (`id_erased`).
    * The identity is erased exactly when the address was never recorded by a
      sign-in or a failed attempt (`delete_account_erases_iff`).
-/

namespace CounselReady

open Relational Framework

variable {Token : Type} {srv : Server Token}

/-! ### What a row says about an account -/

/-- The UUID columns: the row's own key, and its references. -/
def row_ids : (t : Table) → Row t → List Uuid
  | .user_account, (r : UserAccount) => [r.id]
  | .user_session, (r : UserSession) => [r.id, r.user_id]
  | .used_refresh_token, (r : UsedRefreshToken) => [r.id, r.session_id]
  | .auth_event, (r : AuthEvent) => r.id :: r.user_id.toList
  | .case_, (r : Case) => [r.id, r.owner_id]
  | .case_audit_event, (r : CaseAuditEvent) =>
      r.id :: (r.actor_user_id.toList ++ r.case_id.toList)
  | .party, (r : Party) => [r.id, r.case_id]
  | .document, (r : Document) => [r.id, r.case_id]
  | .document_page, (r : DocumentPage) => [r.id, r.document_id]
  | .passage, (r : Passage) => [r.id, r.page_id]
  | .extracted_fact, (r : ExtractedFact) => [r.id, r.document_id, r.passage_id]
  | .case_event, (r : CaseEvent) =>
      [r.id, r.case_id] ++ r.passage_id.toList ++ r.recorded_by_user_id.toList ++
        r.asserted_by_party_id.toList ++ r.about_party_id.toList
  | .case_event_note, (r : CaseEventNote) => [r.id, r.event_id, r.author_user_id]
  | .user_mfa, (r : UserMfa) => [r.id, r.user_id]
  | .recovery_code, (r : RecoveryCode) => [r.id, r.user_id]
  | .passkey, (r : Passkey) => [r.id, r.user_id]
  | .passkey_challenge, (r : PasskeyChallenge) => r.id :: r.user_id.toList
  | .job, (r : Job) => [r.id]

/-- The columns the program writes an id into as text. -/
def spells_id : (t : Table) → Row t → Uuid → Prop
  | .document, (r : Document), id => id.owns_key r.storage_key
  | .job, (r : Job), id => r.payload = id.str
  | _, _, _ => False

/-- The columns the program writes an address into. -/
def row_addresses : (t : Table) → Row t → List String
  | .user_account, (r : UserAccount) => [r.email]
  | .auth_event, (r : AuthEvent) => [r.email]
  | _, _ => []

/-- No row says who the account was, and no audit row is missing. Searched are the columns
    that the program writes an id or an address into; text that people wrote (titles, notes,
    names) is its author's, and is not searched. -/
structure IdentityErased (account : UserAccount) (before after : Database) : Prop where
  ids : ∀ t, ∀ r ∈ after t, account.id ∉ row_ids t r ∧ ¬ spells_id t r account.id
  addresses : ∀ t, ∀ r ∈ after t, account.email ∉ row_addresses t r
  auth_events : (after .auth_event).length = (before .auth_event).length
  audit_events : (after .case_audit_event).length = (before .case_audit_event).length

/-- A UUID column is the primary key or a foreign key. -/
theorem mem_row_ids {t : Table} {r : Row t} {id : Uuid} (h : id ∈ row_ids t r) :
    row_pk t r = id ∨ ∃ k ∈ row_keys t, k.column r = some id := by
  cases t <;>
    simp only [row_ids, List.mem_cons, List.mem_append, List.not_mem_nil, or_false,
      Option.mem_toList] at h <;>
    simp only [row_pk, row_keys, belongs, List.mem_cons, List.not_mem_nil, or_false,
      exists_eq_or_imp, exists_eq_left, Option.some.injEq, false_and] <;>
    grind

/-! ### Ids drawn for accounts -/

/-- No row of the run, other than an account's, is keyed by an account's id. -/
def Apart (h : History Token) : Prop :=
  ∀ w ∈ h.worlds, ∀ w' ∈ h.worlds, ∀ a ∈ w.db .user_account, ∀ t, t ≠ .user_account →
    ∀ r ∈ w'.db t, row_pk t r ≠ UserAccount.id a

/-- The step draws the id. -/
def Step.drew : Step Token → Uuid → Prop
  | .request env _, id => ∃ i, id = env.uuid i
  | .ocr _ _ _, _ => False

/-- The keys a step leaves: those it found, and those it has drawn, for accounts
    or for rows of other tables but not for both. -/
structure Drawn (db : Database) (s : Step Token) (registers : Bool) (db' : Database) : Prop where
  account : ∀ a ∈ db' .user_account, (∃ a₀ ∈ db .user_account, UserAccount.id a = a₀.id) ∨
    (registers = true ∧ s.drew a.id)
  other : ∀ t, t ≠ .user_account → ∀ r ∈ db' t, (∃ r₀ ∈ db t, row_pk t r = row_pk t r₀) ∨
    (registers = false ∧ s.drew (row_pk t r))

def Step.registers : Step Token → Bool
  | .request _ req => req.route.registers
  | .ocr _ _ _ => false

theorem Step.run_drawn (srv : Server Token) (s : Step Token) (w : Committed) :
    Drawn w.db s s.registers (s.run srv w).db := by
  refine Step.run_db_invariant ?_ ⟨fun a ha => .inl ⟨a, ha, rfl⟩, fun t _ r hr => .inl ⟨r, hr, rfl⟩⟩
  intro wr db hp _ hdb
  -- what an inserted row is keyed by
  have hins : ∀ t (row : Row t), wr = .insert t row →
      s.drew (row_pk t row) ∧ (s.registers = true ↔ t = .user_account) := by
    intro t row hwr
    subst hwr
    cases s with
    | ocr env document_id engine => exact hp.elim
    | request env req =>
      refine ⟨hp.1, ?_⟩
      obtain ⟨credentials, route⟩ := req
      have hperm : permits_insert srv env route t row := hp.2
      cases t <;> cases route <;>
        simp_all [permits_insert, Step.registers, Route.registers, Route.signs_in,
          Route.refreshes, Route.opens_case, Route.on_cases, Route.uploads, Route.records_event,
          Route.records_note, Route.sets_up, Route.adds_passkey, Route.asks_challenge]
  constructor
  · intro a ha
    rcases Schema.pk_effect_resolve ha with ⟨a₀, ha₀, hpk⟩ | hwr
    · have hid : UserAccount.id a = UserAccount.id a₀ := hpk
      rw [hid]
      exact hdb.account a₀ ha₀
    · obtain ⟨hdrew, hreg⟩ := hins _ _ hwr
      exact .inr ⟨hreg.mpr rfl, hdrew⟩
  · intro t ht r hr
    rcases Schema.pk_effect_resolve hr with ⟨r₀, hr₀, hpk⟩ | hwr
    · have hid : row_pk t r = row_pk t r₀ := hpk
      rw [hid]
      exact hdb.other t ht r₀ hr₀
    · obtain ⟨hdrew, hreg⟩ := hins _ _ hwr
      refine .inr ⟨?_, hdrew⟩
      by_contra hno
      exact ht (hreg.mp (by simpa using hno))

/-- An id the step draws is no key of the run so far. -/
theorem Step.drew_fresh {h : History Token} {s : Step Token} (hon : Honest srv h s) {id : Uuid}
    (hdrew : s.drew id) {w : Committed} (hw : w ∈ h.worlds) {t : Table} {r : Row t}
    (hr : r ∈ w.db t) : row_pk t r ≠ id := by
  cases s with
  | ocr env document_id engine => exact hdrew.elim
  | request env req =>
    obtain ⟨i, rfl⟩ := hdrew
    exact hon.1.ids w hw t r hr i

theorem Apart.step {h : History Token} {s : Step Token} (hon : Honest srv h s) (ha : Apart h) :
    Apart (h.next srv s) := by
  have hdrawn := s.run_drawn srv h.world
  intro w hw w' hw' a hacc t ht r hr
  -- where the account and the row come from
  have haccount : (∃ v ∈ h.worlds, ∃ a₀ ∈ v.db .user_account, UserAccount.id a = a₀.id) ∨
      (s.registers = true ∧ s.drew a.id) := by
    rcases List.mem_cons.mp hw with rfl | hold
    · rcases hdrawn.account a hacc with ⟨a₀, ha₀, heq⟩ | hnew
      · exact .inl ⟨h.world, h.world_mem_worlds, a₀, ha₀, heq⟩
      · exact .inr hnew
    · exact .inl ⟨w, hold, a, hacc, rfl⟩
  have hrow : (∃ v ∈ h.worlds, ∃ r₀ ∈ v.db t, row_pk t r = row_pk t r₀) ∨
      (s.registers = false ∧ s.drew (row_pk t r)) := by
    rcases List.mem_cons.mp hw' with rfl | hold
    · rcases hdrawn.other t ht r hr with ⟨r₀, hr₀, heq⟩ | hnew
      · exact .inl ⟨h.world, h.world_mem_worlds, r₀, hr₀, heq⟩
      · exact .inr hnew
    · exact .inl ⟨w', hold, r, hr, rfl⟩
  rcases haccount with ⟨v, hv, a₀, ha₀, heq⟩ | ⟨hreg, hdrew⟩
  · rcases hrow with ⟨v', hv', r₀, hr₀, hpk⟩ | ⟨_, hdrew⟩
    · rw [hpk, heq]
      exact ha v hv v' hv' a₀ ha₀ t ht r₀ hr₀
    · rw [heq]
      exact (Step.drew_fresh hon hdrew hv ha₀).symm
  · rcases hrow with ⟨v', hv', r₀, hr₀, hpk⟩ | ⟨hno, _⟩
    · rw [hpk]
      exact Step.drew_fresh hon hdrew hv' hr₀
    · rw [hreg] at hno
      cases hno

theorem Reaches.apart {h : History Token} (hr : Reaches srv (Honest srv) History.start h) :
    Apart h := by
  induction hr with
  | refl =>
    intro w hw w' _ a ha
    rw [List.mem_singleton.mp hw] at ha
    cases ha
  | step s _ hon ih => exact ih.step hon

/-! ### Jobs -/

/-- Every job is for a document of the run. -/
def JobsForDocuments (h : History Token) : Prop :=
  ∀ j ∈ h.world.db .job, ∃ w ∈ h.worlds, ∃ d ∈ w.db .document, Job.payload j = (Document.id d).str

theorem JobsForDocuments.step {h : History Token} {s : Step Token} (hj : JobsForDocuments h) :
    JobsForDocuments (h.next srv s) := by
  -- the jobs found, and a job for a document the step has left
  suffices hP : ∀ j ∈ (s.run srv h.world).db .job, j ∈ h.world.db .job ∨
      ∃ d ∈ (s.run srv h.world).db .document, Job.payload j = (Document.id d).str by
    intro j hmem
    rcases hP j hmem with hold | ⟨d, hd, hpay⟩
    · obtain ⟨w, hw, hrest⟩ := hj j hold
      exact ⟨w, List.mem_cons_of_mem _ hw, hrest⟩
    · exact ⟨_, List.mem_cons_self, d, hd, hpay⟩
  by_cases hmoves : s.moves_objects = false
  · let J : Database → Prop := fun db => ∀ j ∈ db .job, j ∈ h.world.db .job
    have hJ : J (s.run srv h.world).db := by
      refine Step.run_db_invariant ?_ (fun j hmem => hmem)
      intro wr db hp _ hdb j hmem
      rcases Schema.mem_effect_resolve (rigid (by decide)) hmem with hold | rfl |
        ⟨_, p, _, _, rfl, _, _⟩
      · exact hdb j hold
      · cases s with
        | ocr env document_id engine => exact hp.elim
        | request env req =>
          have hup : req.route.uploads = true := hp.2
          simp [Step.moves_objects, hup] at hmoves
      · cases s with
        | ocr env document_id engine => exact hp.elim
        | request env req => exact hp.elim
    exact fun j hmem => .inl (hJ j hmem)
  cases s with
  | ocr env document_id engine => exact absurd rfl hmoves
  | request env req =>
    obtain ⟨credentials, route⟩ := req
    let P : Response Token → Committed → Prop := fun _ w' => ∀ j ∈ w'.db .job,
      j ∈ h.world.db .job ∨ ∃ d ∈ w'.db .document, Job.payload j = (Document.id d).str
    suffices hP : P (serve srv env ⟨credentials, route⟩ h.world).1
        (serve srv env ⟨credentials, route⟩ h.world).2 from hP
    cases route
    case upload_document case_id upload =>
      apply serve_wps
      refine wps_upload_document (fun e j hmem => .inl hmem) (fun auth e s' _ _ _ j hmem => .inl hmem)
        fun auth source extraction s' _ _ _ hdb _ => ⟨fun _ j hmem => ?_,
          fun _ j hmem => .inl hmem⟩
      dsimp only at hmem ⊢
      rw [hdb] at hmem ⊢
      rcases mem_with_upload_job hmem with hold | hnew
      · exact .inl hold
      · refine .inr ⟨_, ?_, by rw [hnew]; rfl⟩
        rw [with_upload_document]
        exact List.mem_append_right _ (List.mem_singleton_self _)
    case delete_own_account password mfa_code acknowledge =>
      apply serve_wps
      refine wps_delete_own_account (fun e s' _ j hmem => .inl hmem)
        fun auth db reply s' hmay hdb _ => ⟨fun _ j hmem => .inl ?_, fun _ j hmem => .inl hmem⟩
      dsimp only at hmem
      rw [hdb] at hmem
      obtain ⟨j₀, hj₀, _, hsame⟩ := Schema.mem_effect_remove.mp hmem
      rw [rigid (by decide)] at hsame
      have hjobs : db .job = h.world.db .job :=
        hmay.reauthenticated.other (by decide) (by decide)
      rw [← hsame, ← hjobs]
      exact hj₀
    all_goals exact absurd rfl hmoves

theorem Reaches.jobsForDocuments {C : History Token → Step Token → Prop} {h : History Token}
    (hr : Reaches srv C History.start h) : JobsForDocuments h := by
  induction hr with
  | refl =>
    intro j hj
    cases hj
  | step s _ _ ih => exact ih.step

/-! ### Without the account -/

/-- **Ids.** No row that stays names the account's id. -/
theorem id_erased {h : History Token} (hr : Reaches srv (Honest srv) History.start h)
    {account : UserAccount} (ha : account ∈ h.world.db .user_account) {t : Table} {r : Row t}
    (hmem : r ∈ without_account h.world.db account.id t) :
    account.id ∉ row_ids t r ∧ ¬ spells_id t r account.id := by
  have hafter : schema.Consistent (without_account h.world.db account.id) :=
    Schema.consistent_delete schema_regular hr.consistent _ _
  -- no row that stays is keyed by the id
  have hpk : ∀ t, ∀ r ∈ without_account h.world.db account.id t, row_pk t r ≠ account.id := by
    intro t r hr' heq
    obtain ⟨r₀, hr₀, hstay, rfl⟩ := Schema.mem_effect_remove.mp hr'
    have hsame : schema.pk t (schema.null_out (schema.doomed h.world.db .user_account account.id)
        t r₀) = schema.pk t r₀ := Schema.pk_null_out _ t r₀
    have hkey : row_pk t r₀ = account.id := hsame.symm.trans heq
    by_cases ht : t = .user_account
    · subst ht
      refine hstay ?_
      change (Table.user_account, row_pk .user_account r₀) ∈ _
      rw [hkey]
      exact Schema.mem_doomed_self _ _ _
    · exact hr.apart _ h.world_mem_worlds _ h.world_mem_worlds account ha t ht r₀ hr₀ hkey
  have hids : ∀ t, ∀ r ∈ without_account h.world.db account.id t,
      account.id ∉ row_ids t r := by
    intro t r hr' hin
    rcases mem_row_ids hin with heq | ⟨k, hk, hcol⟩
    · exact hpk t r hr' heq
    · -- a reference that stays has its target
      obtain ⟨p, hp, hpid⟩ := hafter.target hr' hk hcol
      exact hpk _ p hp hpid
  refine ⟨hids t r hmem, ?_⟩
  obtain ⟨r₀, hr₀, _, hsame⟩ := Schema.mem_effect_remove.mp hmem
  cases t
  case document =>
    rw [rigid (by decide)] at hsame
    subst hsame
    intro hspells
    have hcase : Document.case_id r₀ = account.id := by
      have hcan : Document.storage_key r₀ = storage_key (Document.case_id r₀).str
          (Document.content_hash r₀) := hr.canonical r₀ hr₀
      have hkey : Uuid.owns_key account.id (Document.storage_key r₀) := hspells
      rw [hcan] at hkey
      exact Uuid.owns_key_unique (owns_storage_key _ _) hkey
    exact hids .document r₀ hmem (by simp [row_ids, ← hcase])
  case job =>
    rw [rigid (by decide)] at hsame
    subst hsame
    intro hspells
    obtain ⟨w, hw, d, hd, hpay⟩ := hr.jobsForDocuments r₀ hr₀
    have hpay' : Job.payload r₀ = account.id.str := hspells
    refine hr.apart _ h.world_mem_worlds w hw account ha .document (by decide) d hd ?_
    exact Uuid.str_inj (hpay.symm.trans hpay')
  all_goals exact id

/-- The rows of a table that hangs off nothing by a cascade all stay. -/
theorem length_without_account {db : Database} {id : Uuid} {t : Table} (ht : t ≠ .user_account)
    (h : ∀ k ∈ row_keys t, k.cascades = false) :
    (without_account db id t).length = (db t).length := by
  unfold without_account
  rw [Schema.effect_remove, List.length_map]
  congr 1
  refine List.filter_eq_self.mpr fun r _ => ?_
  have hstay : (t, schema.pk t r) ∉ schema.doomed db .user_account id :=
    Schema.not_mem_doomed ht h
  simpa using hstay

/-- Clearing the account column of an audit row keeps the address. -/
theorem email_null_out (gone : List (Table × Uuid)) (e : AuthEvent) :
    AuthEvent.email (schema.null_out gone .auth_event e) = e.email := by
  let P : AuthEvent → Prop := fun e' => e'.email = e.email
  have h0 : P e := rfl
  have hclears : ∀ k ∈ row_keys .auth_event, ∀ clear, k.on_delete = .set_null clear →
      ∀ e', P e' → P (clear e') := by
    intro k hk clear hclear e' he'
    obtain rfl := List.mem_singleton.mp hk
    cases hclear
    exact he'
  exact @Schema.foldl_nulled_keeps Table Uuid Row _ _ gone .auth_event P _ hclears e h0

/-- The addresses on record stay as they are. -/
theorem mem_auth_event_without_account {db : Database} {id : Uuid} {email : String} :
    (∃ e ∈ without_account db id .auth_event, AuthEvent.email e = email) ↔
      ∃ e ∈ db .auth_event, AuthEvent.email e = email := by
  constructor
  · rintro ⟨e, he, heq⟩
    obtain ⟨e₀, he₀, _, rfl⟩ := Schema.mem_effect_remove.mp he
    exact ⟨e₀, he₀, (email_null_out _ e₀).symm.trans heq⟩
  · rintro ⟨e, he, heq⟩
    refine ⟨_, Schema.mem_effect_remove.mpr ⟨e, he, ?_, rfl⟩, (email_null_out _ e).trans heq⟩
    refine Schema.not_mem_doomed (by decide) fun k hk => ?_
    obtain rfl := List.mem_singleton.mp hk
    rfl

/-- No other account has the address. -/
theorem email_of_without_account {db : Database} (hc : schema.Consistent db)
    {account : UserAccount} (ha : account ∈ db .user_account) {r : UserAccount}
    (hr : r ∈ without_account db account.id .user_account) : r.email ≠ account.email := by
  intro heq
  obtain ⟨r₀, hr₀, hstay, hsame⟩ := Schema.mem_effect_remove.mp hr
  rw [rigid (by decide)] at hsame
  subst hsame
  have hclash : schema.clash .user_account r₀ account = true := by
    simpa [schema, row_clash] using heq
  rw [hc.eq_of_clash schema_regular hr₀ ha hclash] at hstay
  exact hstay (Schema.mem_doomed_self _ _ _)

/-! ### The deletion -/

/-- The rows after a deletion of the account that has been committed. -/
theorem get_session_delete_account {env : Env} {account : UserAccount} {w : Committed}
    {summary : DeletionSummary}
    (hok : (get_session env (delete_account account) w).1 = .ok summary) :
    (get_session env (delete_account account) w).2.db = without_account w.db account.id := by
  let P : Except Exc DeletionSummary → Committed → Prop := fun r w' =>
    ∀ summary, r = .ok summary → w'.db = without_account w.db account.id
  have hP : P (get_session env (delete_account account) w).1
      (get_session env (delete_account account) w).2 := by
    refine get_session_wps (wps_delete_account ?_ ?_)
    · intro v s' _ summary h
      cases h
    · intro summary s' hdb _
      refine ⟨fun _ _ _ => hdb, fun _ _ h => ?_⟩
      cases h
  exact hP summary hok

/-- **Deletion.** In every reachable state, deleting an account erases its identity
    exactly when no sign-in and no failed attempt was ever recorded under its
    address. -/
theorem delete_account_erases_iff {h : History Token}
    (hr : Reaches srv (Honest srv) History.start h) {account : UserAccount}
    (ha : account ∈ h.world.db .user_account) {env : Env} {summary : DeletionSummary}
    (hok : (get_session env (delete_account account) h.world).1 = .ok summary) :
    IdentityErased account h.world.db (get_session env (delete_account account) h.world).2.db ↔
      ∀ e ∈ h.world.db .auth_event, AuthEvent.email e ≠ account.email := by
  rw [get_session_delete_account hok]
  constructor
  · intro herased e he heq
    obtain ⟨e', he', heq'⟩ := mem_auth_event_without_account.mpr ⟨e, he, heq⟩
    exact herased.addresses .auth_event e' he' (by simp [row_addresses, heq'])
  · intro hnone
    refine ⟨fun t r hmem => id_erased hr ha hmem, fun t r hmem hin => ?_, ?_, ?_⟩
    · -- two tables hold addresses, and the account's own row is gone
      cases t <;> simp only [row_addresses, List.not_mem_nil, List.mem_singleton] at hin
      case user_account => exact email_of_without_account hr.consistent ha hmem hin.symm
      case auth_event =>
        obtain ⟨e, he, heq⟩ := mem_auth_event_without_account.mp ⟨r, hmem, hin.symm⟩
        exact hnone e he heq
    · refine length_without_account (by decide) fun k hk => ?_
      obtain rfl := List.mem_singleton.mp hk
      rfl
    · refine length_without_account (by decide) fun k hk => ?_
      simp only [row_keys, List.mem_cons, List.not_mem_nil, or_false] at hk
      rcases hk with rfl | rfl
      · rfl
      · rfl

/-! ### An address that stays -/

/-- An account that has registered, and has not signed in. -/
def registered : History Payload :=
  History.start.next Sample.server
    (.request (Sample.env 1 (100 * second)) ⟨none, .register "a@x.org" "correct horse" none⟩)

/-- The same account, signed in once. -/
def signed_in_once : History Payload :=
  registered.next Sample.server
    (.request (Sample.env 2 (101 * second)) ⟨none, .login "a@x.org" "correct horse"⟩)

theorem reaches_registered :
    Reaches Sample.server (Honest Sample.server) History.start registered :=
  .step _ .refl (Sample.honest_of_check (by decide) rfl rfl (by decide +kernel))

theorem reaches_signed_in_once :
    Reaches Sample.server (Honest Sample.server) History.start signed_in_once :=
  .step _ reaches_registered (Sample.honest_of_check (by decide) rfl rfl (by decide +kernel))

/-- The account of both. -/
def departing : UserAccount := ⟨4096#128, "a@x.org", none, true, some "correct horse"⟩

/-- Before any sign-in, nothing of the account is left. -/
theorem registered_erased : IdentityErased departing registered.world.db
    (get_session (Sample.env 2 (101 * second)) (delete_account departing)
      registered.world).2.db := by
  have hok : (get_session (Sample.env 2 (101 * second)) (delete_account departing)
      registered.world).1 = .ok ⟨0, 0, 0⟩ := by
    decide +kernel
  refine (delete_account_erases_iff reaches_registered (by decide +kernel) hok).mpr ?_
  decide +kernel

/-- After one sign-in, the address stays in the audit trail. -/
theorem signed_in_once_not_erased :
    Reaches Sample.server (Honest Sample.server) History.start signed_in_once ∧
      departing ∈ signed_in_once.world.db .user_account ∧
      (get_session (Sample.env 3 (102 * second)) (delete_account departing)
        signed_in_once.world).1 = .ok ⟨0, 0, 0⟩ ∧
      ¬ IdentityErased departing signed_in_once.world.db
        (get_session (Sample.env 3 (102 * second)) (delete_account departing)
          signed_in_once.world).2.db := by
  refine ⟨reaches_signed_in_once, by decide +kernel, by decide +kernel, ?_⟩
  intro herased
  have hmem : (⟨8193#128, 101 * second, "a@x.org", none, .login_succeeded⟩ : AuthEvent) ∈
      (get_session (Sample.env 3 (102 * second)) (delete_account departing)
        signed_in_once.world).2.db .auth_event := by
    decide +kernel
  exact herased.addresses .auth_event _ hmem (by decide)

end CounselReady
