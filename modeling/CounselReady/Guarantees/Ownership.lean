import CounselReady.Framework.Cascade
import CounselReady.Specs.CaseFile

/-! # Whose Rows They Are

    The invariant behind the case file: nothing but the routes writes it, so
    every entry of a timeline, every note and every audit row of a case names
    the account that owns the case.

    * `detached`: what `ON DELETE SET NULL` leaves of a row, column by column.
    * `OneOwner`: the invariant, kept by every step (`OneOwner.step`).
-/

namespace CounselReady

open Relational Framework

variable {Token : Type} {srv : Server Token}

/-! ### Cleared columns -/

/-- A reference to a row of `t`, unless that row goes. -/
def kept_ref (gone : List (Table × Uuid)) (t : Table) (id : Option Uuid) : Option Uuid :=
  id.filter (fun i => decide ((t, i) ∉ gone))

/-- What `ON DELETE SET NULL` leaves of a row that stays while the rows `gone` go. -/
def detached (gone : List (Table × Uuid)) : (t : Table) → Row t → Row t
  | .auth_event, (r : AuthEvent) => { r with user_id := kept_ref gone .user_account r.user_id }
  | .case_audit_event, (r : CaseAuditEvent) =>
      { r with
        actor_user_id := kept_ref gone .user_account r.actor_user_id
        case_id := kept_ref gone .case_ r.case_id }
  | .case_event, (r : CaseEvent) =>
      { r with
        asserted_by_party_id := kept_ref gone .party r.asserted_by_party_id
        about_party_id := kept_ref gone .party r.about_party_id }
  | _, r => r

theorem kept_ref_eq_some {gone : List (Table × Uuid)} {t : Table} {id : Option Uuid} {i : Uuid} :
    kept_ref gone t id = some i ↔ id = some i ∧ (t, i) ∉ gone := by
  unfold kept_ref
  rw [Option.filter_eq_some_iff]
  simp

theorem kept_ref_of_not_mem {gone : List (Table × Uuid)} {t : Table} {id : Option Uuid}
    (h : ∀ i, id = some i → (t, i) ∉ gone) : kept_ref gone t id = id := by
  cases id with
  | none => rfl
  | some i => exact kept_ref_eq_some.mpr ⟨rfl, h i rfl⟩

/-- A nullable foreign key, `ON DELETE SET NULL`, by the assignment of its column. -/
def clears {t : Table} (column : Row t → Option Uuid) (target : Table)
    (assign : Option Uuid → Row t → Row t) : ForeignKey Row Uuid t :=
  ⟨column, target, .set_null (assign none)⟩

/-- The clearing of one key is an assignment of what is left of its reference. -/
theorem nulled_clears {t : Table} {column : Row t → Option Uuid} {target : Table}
    {assign : Option Uuid → Row t → Row t} (hself : ∀ r, assign (column r) r = r)
    (gone : List (Table × Uuid)) (r : Row t) :
    Schema.nulled gone r (clears column target assign) =
      assign (kept_ref gone target (column r)) r := by
  unfold Schema.nulled clears
  cases hcol : column r with
  | none =>
    have hkeep : assign none r = r := by
      have hr := hself r
      rwa [hcol] at hr
    simp [ForeignKey.hits, hcol, kept_ref, hkeep]
  | some i =>
    by_cases hi : (target, i) ∈ gone
    · have hnone : kept_ref gone target (some i) = none := by simp [kept_ref, hi]
      simp [ForeignKey.hits, hcol, hi, hnone]
    · have hsome : kept_ref gone target (some i) = some i := by simp [kept_ref, hi]
      have hkeep : assign (some i) r = r := by
        have hr := hself r
        rwa [hcol] at hr
      simp [ForeignKey.hits, hcol, hi, hsome, hkeep]

def auth_user_key : ForeignKey Row Uuid .auth_event :=
  clears AuthEvent.user_id .user_account (fun i (r : AuthEvent) => { r with user_id := i })

def audit_actor_key : ForeignKey Row Uuid .case_audit_event :=
  clears CaseAuditEvent.actor_user_id .user_account
    (fun i (r : CaseAuditEvent) => { r with actor_user_id := i })

def audit_case_key : ForeignKey Row Uuid .case_audit_event :=
  clears CaseAuditEvent.case_id .case_ (fun i (r : CaseAuditEvent) => { r with case_id := i })

def event_asserted_key : ForeignKey Row Uuid .case_event :=
  clears CaseEvent.asserted_by_party_id .party
    (fun i (r : CaseEvent) => { r with asserted_by_party_id := i })

def event_about_key : ForeignKey Row Uuid .case_event :=
  clears CaseEvent.about_party_id .party (fun i (r : CaseEvent) => { r with about_party_id := i })

theorem null_out_auth_event (gone : List (Table × Uuid)) (r : AuthEvent) :
    schema.null_out gone .auth_event r = detached gone .auth_event r := by
  show Schema.nulled gone (r : Row .auth_event) auth_user_key = _
  rw [auth_user_key, nulled_clears (fun _ => rfl)]
  rfl

theorem null_out_case_audit_event (gone : List (Table × Uuid)) (r : CaseAuditEvent) :
    schema.null_out gone .case_audit_event r = detached gone .case_audit_event r := by
  show Schema.nulled gone (Schema.nulled gone (r : Row .case_audit_event) audit_actor_key)
    audit_case_key = _
  rw [audit_actor_key, nulled_clears (fun _ => rfl), audit_case_key, nulled_clears (fun _ => rfl)]
  rfl

theorem null_out_case_event (gone : List (Table × Uuid)) (r : CaseEvent) :
    schema.null_out gone .case_event r = detached gone .case_event r := by
  -- the three cascading keys before them leave the row as it is
  show Schema.nulled gone (Schema.nulled gone (r : Row .case_event) event_asserted_key)
    event_about_key = _
  rw [event_asserted_key, nulled_clears (fun _ => rfl), event_about_key,
    nulled_clears (fun _ => rfl)]
  rfl

/-- **Detachment.** `ON DELETE SET NULL`, spelled out. -/
theorem null_out_eq_detached (gone : List (Table × Uuid)) (t : Table) (r : Row t) :
    schema.null_out gone t r = detached gone t r := by
  cases t
  case auth_event => exact null_out_auth_event gone r
  case case_audit_event => exact null_out_case_audit_event gone r
  case case_event => exact null_out_case_event gone r
  all_goals rfl

/-! ### One owner -/

/-- An entry as the routes write it: asserted, and by the owner of its case. -/
structure Asserted (db : Database) (e : CaseEvent) : Prop where
  provenance : e.provenance = .user_asserted
  passage : e.passage_id = none
  asserted_by : e.asserted_by_party_id = none
  about : e.about_party_id = none
  author : ∃ c ∈ db .case_, Case.id c = e.case_id ∧ e.recorded_by_user_id = some (Case.owner_id c)

/-- The rows of a case file name the account that owns the case. -/
structure OneOwner (db : Database) : Prop where
  passages : db .passage = []
  parties : db .party = []
  facts : db .extracted_fact = []
  events : ∀ e ∈ db .case_event, Asserted db e
  notes : ∀ n ∈ db .case_event_note, ∃ e ∈ db .case_event,
    CaseEvent.id e = CaseEventNote.event_id n ∧
      CaseEvent.recorded_by_user_id e = some (CaseEventNote.author_user_id n)
  audits : ∀ x ∈ db .case_audit_event, ∀ i, CaseAuditEvent.case_id x = some i →
    ∃ c ∈ db .case_, Case.id c = i ∧ CaseAuditEvent.actor_user_id x = some (Case.owner_id c)

theorem oneOwner_empty : OneOwner (fun _ => []) := by
  refine ⟨rfl, rfl, rfl, ?_, ?_, ?_⟩
  all_goals
    intro r hr
    cases hr

theorem Asserted.mono {db db' : Database} {e : CaseEvent} (h : Asserted db e)
    (hcases : ∀ c ∈ db .case_, c ∈ db' .case_) : Asserted db' e := by
  obtain ⟨c, hc, hid, hauthor⟩ := h.author
  exact ⟨h.provenance, h.passage, h.asserted_by, h.about, c, hcases c hc, hid, hauthor⟩

/-- Cases and entries that stay keep the invariant; the new rows have to be right. -/
theorem OneOwner.grow {db db' : Database} (h : OneOwner db)
    (hpassages : db' .passage = db .passage) (hparties : db' .party = db .party)
    (hfacts : db' .extracted_fact = db .extracted_fact)
    (hcases : ∀ c ∈ db .case_, c ∈ db' .case_)
    (hentries : ∀ e ∈ db .case_event, e ∈ db' .case_event)
    (hevents : ∀ e ∈ db' .case_event, e ∈ db .case_event ∨ Asserted db' e)
    (hnotes : ∀ n ∈ db' .case_event_note, n ∈ db .case_event_note ∨ ∃ e ∈ db' .case_event,
      CaseEvent.id e = CaseEventNote.event_id n ∧
        CaseEvent.recorded_by_user_id e = some (CaseEventNote.author_user_id n))
    (haudits : ∀ x ∈ db' .case_audit_event, x ∈ db .case_audit_event ∨
      ∀ i, CaseAuditEvent.case_id x = some i → ∃ c ∈ db' .case_, Case.id c = i ∧
        CaseAuditEvent.actor_user_id x = some (Case.owner_id c)) : OneOwner db' where
  passages := hpassages.trans h.passages
  parties := hparties.trans h.parties
  facts := hfacts.trans h.facts
  events := by
    intro e he
    rcases hevents e he with hold | hnew
    · exact (h.events e hold).mono hcases
    · exact hnew
  notes := by
    intro n hn
    rcases hnotes n hn with hold | hnew
    · obtain ⟨e, he, hid, hauthor⟩ := h.notes n hold
      exact ⟨e, hentries e he, hid, hauthor⟩
    · exact hnew
  audits := by
    intro x hx i hi
    rcases haudits x hx with hold | hnew
    · obtain ⟨c, hc, hid, hactor⟩ := h.audits x hold i hi
      exact ⟨c, hcases c hc, hid, hactor⟩
    · exact hnew i hi

/-! ### Deletes -/

/-- A row that stays keeps the row its cascading key points at. -/
theorem target_stays {db : Database} {t₀ t : Table} {i₀ : Uuid} {r : Row t}
    {k : ForeignKey Row Uuid t} (hr : r ∈ db t) (hstay : (t, row_pk t r) ∉ schema.doomed db t₀ i₀)
    (hk : k ∈ row_keys t) (hc : k.cascades = true) {j : Uuid} (hj : k.column r = some j) :
    (k.target, j) ∉ schema.doomed db t₀ i₀ := by
  intro hgone
  have hit : k.hits (schema.doomed db t₀ i₀) r = true := Schema.hits_of_column rfl hj hgone
  exact hstay (Schema.doomed_closed schema_stratified (schema_regular.ordered t) hr hk hc hit)

/-- What a delete leaves, with its cleared columns spelled out. -/
theorem mem_remove {db : Database} {gone : List (Table × Uuid)} {t : Table} {r : Row t} :
    r ∈ schema.effect (.remove gone) db t ↔
      ∃ r₀ ∈ db t, (t, row_pk t r₀) ∉ gone ∧ detached gone t r₀ = r := by
  rw [Schema.mem_effect_remove]
  simp only [null_out_eq_detached]
  rfl

theorem OneOwner.delete {db : Database} (h : OneOwner db) (t₀ : Table) (i₀ : Uuid) :
    OneOwner (schema.effect (.remove (schema.doomed db t₀ i₀)) db) := by
  have hnone : ∀ t, db t = [] → schema.effect (.remove (schema.doomed db t₀ i₀)) db t = [] := by
    intro t ht
    rw [Schema.effect_remove, ht]
    rfl
  -- the case of an entry that stays, and the account that owns it, stay
  have hcase : ∀ c ∈ db .case_, (Table.case_, Case.id c) ∉ schema.doomed db t₀ i₀ →
      c ∈ schema.effect (.remove (schema.doomed db t₀ i₀)) db .case_ :=
    fun c hc hstay => mem_remove.mpr ⟨c, hc, hstay, rfl⟩
  refine ⟨hnone _ h.passages, hnone _ h.parties, hnone _ h.facts, ?_, ?_, ?_⟩
  · intro e' he'
    obtain ⟨e, he, hstay, rfl⟩ := mem_remove.mp he'
    have hold := h.events e he
    obtain ⟨c, hc, hid, hauthor⟩ := hold.author
    have hcstay := target_stays (k := belongs .case_ CaseEvent.case_id) he hstay
      List.mem_cons_self rfl rfl
    refine ⟨hold.provenance, hold.passage, ?_, ?_, c, hcase c hc ?_, hid, hauthor⟩
    · simp [detached, kept_ref, hold.asserted_by]
    · simp [detached, kept_ref, hold.about]
    · rw [hid]
      exact hcstay
  · intro n' hn'
    obtain ⟨n, hn, hstay, rfl⟩ := mem_remove.mp hn'
    obtain ⟨e, he, hid, hauthor⟩ := h.notes n hn
    have hestay := target_stays (k := belongs .case_event CaseEventNote.event_id) hn hstay
      List.mem_cons_self rfl rfl
    refine ⟨detached (schema.doomed db t₀ i₀) .case_event e, mem_remove.mpr ⟨e, he, ?_, rfl⟩,
      hid, hauthor⟩
    show (Table.case_event, CaseEvent.id e) ∉ _
    rw [hid]
    exact hestay
  · intro x' hx' i hi
    obtain ⟨x, hx, _, rfl⟩ := mem_remove.mp hx'
    obtain ⟨hi, histay⟩ := kept_ref_eq_some.mp hi
    obtain ⟨c, hc, hid, hactor⟩ := h.audits x hx i hi
    have hcstay : (Table.case_, Case.id c) ∉ schema.doomed db t₀ i₀ := by rwa [hid]
    have howner := target_stays (k := belongs .user_account Case.owner_id) hc hcstay
      List.mem_cons_self rfl rfl
    refine ⟨c, hcase c hc hcstay, hid, ?_⟩
    show kept_ref _ .user_account (CaseAuditEvent.actor_user_id x) = _
    rw [hactor]
    exact kept_ref_eq_some.mpr ⟨rfl, howner⟩

/-! ### Statements outside the case file -/

/-- The tables only a case route adds to. -/
def case_file : List Table :=
  [.case_, .case_audit_event, .party, .passage, .extracted_fact, .case_event, .case_event_note]

theorem OneOwner.congr {db db' : Database} (h : OneOwner db)
    (heq : ∀ t ∈ case_file, db' t = db t) : OneOwner db' := by
  refine h.grow (heq _ (by decide)) (heq _ (by decide)) (heq _ (by decide)) ?_ ?_ ?_ ?_ ?_
  · intro c hc
    rwa [heq .case_ (by decide)]
  · intro e he
    rwa [heq .case_event (by decide)]
  · intro e he
    rw [heq .case_event (by decide)] at he
    exact .inl he
  · intro n hn
    rw [heq .case_event_note (by decide)] at hn
    exact .inl hn
  · intro x hx
    rw [heq .case_audit_event (by decide)] at hx
    exact .inl hx

/-- A statement that adds no row to the case file keeps the invariant. -/
theorem OneOwner.statement {db : Database} (h : OneOwner db) (wr : Write Row Patch Uuid)
    (hwr : ∀ t row, wr = .insert t row → t ∉ case_file) :
    OneOwner (schema.effect (schema.resolve db wr) db) := by
  cases wr with
  | insert t row =>
    have ht := hwr t row rfl
    refine h.congr fun t' ht' => Schema.effect_insert_ne _ _ ?_
    rintro rfl
    exact ht ht'
  | update t id p =>
    refine h.congr fun t' ht' => Schema.effect_update_ne _ _ _ ?_
    rintro rfl
    -- the program has no UPDATE for a table of the case file
    cases t <;> first | exact p.elim | exact absurd ht' (by decide)
  | delete t id => exact h.delete t id

/-! ### Case routes -/

/-- An audit row of a case names the owner of the case. -/
theorem OneOwner.audit {db : Database} (h : OneOwner db) {row : CaseAuditEvent}
    (hrow : ∀ i, row.case_id = some i →
      ∃ c ∈ db .case_, Case.id c = i ∧ row.actor_user_id = some (Case.owner_id c)) :
    OneOwner (schema.effect (.insert .case_audit_event row) db) := by
  have hne : ∀ t, .case_audit_event ≠ t →
      schema.effect (.insert .case_audit_event row) db t = db t :=
    fun t ht => Schema.effect_insert_ne _ _ ht
  have hcases := hne .case_ (by decide)
  have hentries := hne .case_event (by decide)
  have hnotes := hne .case_event_note (by decide)
  refine h.grow (hne _ (by decide)) (hne _ (by decide)) (hne _ (by decide)) ?_ ?_ ?_ ?_ ?_
  · intro c hc
    rwa [hcases]
  · intro e he
    rwa [hentries]
  · intro e he
    rw [hentries] at he
    exact .inl he
  · intro n hn
    rw [hnotes] at hn
    exact .inl hn
  · intro x hx
    rcases Schema.mem_effect_insert.mp hx with hold | rfl
    · exact .inl hold
    · rw [hcases]
      exact .inr hrow

theorem OneOwner.insert_case {db : Database} (h : OneOwner db) (c : Case) :
    OneOwner (schema.effect (.insert .case_ c) db) := by
  have hne : ∀ t, .case_ ≠ t → schema.effect (.insert .case_ c) db t = db t :=
    fun t ht => Schema.effect_insert_ne _ _ ht
  refine h.grow (hne _ (by decide)) (hne _ (by decide)) (hne _ (by decide)) ?_ ?_ ?_ ?_ ?_
  · intro c' hc'
    exact Schema.mem_effect_insert.mpr (.inl hc')
  · intro e he
    rwa [hne .case_event (by decide)]
  · intro e he
    rw [hne .case_event (by decide)] at he
    exact .inl he
  · intro n hn
    rw [hne .case_event_note (by decide)] at hn
    exact .inl hn
  · intro x hx
    rw [hne .case_audit_event (by decide)] at hx
    exact .inl hx

theorem OneOwner.insert_event {db : Database} (h : OneOwner db) {e : CaseEvent}
    (he : Asserted db e) : OneOwner (schema.effect (.insert .case_event e) db) := by
  have hne : ∀ t, .case_event ≠ t → schema.effect (.insert .case_event e) db t = db t :=
    fun t ht => Schema.effect_insert_ne _ _ ht
  refine h.grow (hne _ (by decide)) (hne _ (by decide)) (hne _ (by decide)) ?_ ?_ ?_ ?_ ?_
  · intro c hc
    rwa [hne .case_ (by decide)]
  · intro e' he'
    exact Schema.mem_effect_insert.mpr (.inl he')
  · intro e' he'
    rcases Schema.mem_effect_insert.mp he' with hold | rfl
    · exact .inl hold
    · refine .inr (he.mono fun c hc => ?_)
      rwa [hne .case_ (by decide)]
  · intro n hn
    rw [hne .case_event_note (by decide)] at hn
    exact .inl hn
  · intro x hx
    rw [hne .case_audit_event (by decide)] at hx
    exact .inl hx

theorem OneOwner.insert_note {db : Database} (h : OneOwner db) {n : CaseEventNote}
    (hn : ∃ e ∈ db .case_event, CaseEvent.id e = n.event_id ∧
      CaseEvent.recorded_by_user_id e = some n.author_user_id) :
    OneOwner (schema.effect (.insert .case_event_note n) db) := by
  have hne : ∀ t, .case_event_note ≠ t →
      schema.effect (.insert .case_event_note n) db t = db t :=
    fun t ht => Schema.effect_insert_ne _ _ ht
  refine h.grow (hne _ (by decide)) (hne _ (by decide)) (hne _ (by decide)) ?_ ?_ ?_ ?_ ?_
  · intro c hc
    rwa [hne .case_ (by decide)]
  · intro e he
    rwa [hne .case_event (by decide)]
  · intro e he
    rw [hne .case_event (by decide)] at he
    exact .inl he
  · intro n' hn'
    rcases Schema.mem_effect_insert.mp hn' with hold | rfl
    · exact .inl hold
    · rw [hne .case_event (by decide)]
      exact .inr hn
  · intro x hx
    rw [hne .case_audit_event (by decide)] at hx
    exact .inl hx

/-- **Access.** What a case request adds names the account it was made for. -/
theorem OneOwner.access {env : Env} {account : UserAccount} {db db₁ : Database}
    {route : Route Token} {reply : Reply Token} {row : CaseAuditEvent} (h : OneOwner db)
    (hcons : schema.Consistent db) (hacc : CaseAccess srv env account db route reply row db₁) :
    OneOwner (schema.effect (.insert .case_audit_event row) db₁) := by
  -- the audit row of a route on an owned case
  have hrow : ∀ (db' : Database) (case_id : Uuid) (c : Case), Owns db account case_id c →
      (∀ c ∈ db .case_, c ∈ db' .case_) → ∀ i, some case_id = some i →
      ∃ c ∈ db' .case_, Case.id c = i ∧ some account.id = some (Case.owner_id c) := by
    intro db' case_id c hc hsub i hi
    obtain rfl := Option.some.inj hi
    exact ⟨c, hsub c hc.mem, hc.id, by rw [hc.owner]⟩
  cases hacc with
  | create_case title court case_number =>
    refine (h.insert_case _).audit ?_
    intro i hi
    obtain rfl := Option.some.inj hi
    exact ⟨_, Schema.mem_effect_insert.mpr (.inr rfl), rfl, rfl⟩
  | list_cases =>
    refine h.audit ?_
    intro i hi
    cases hi
  | read_case case_id c hc => exact h.audit (hrow db case_id c hc fun _ h => h)
  | list_documents case_id c hc => exact h.audit (hrow db case_id c hc fun _ h => h)
  | read_document case_id document_id c hc => exact h.audit (hrow db case_id c hc fun _ h => h)
  | list_events case_id c hc => exact h.audit (hrow db case_id c hc fun _ h => h)
  | upload_document case_id upload c hc source extraction hread =>
    have hsame : ∀ t ∈ case_file, with_pages env
        (uploaded_document srv env case_id upload source extraction) extraction
        (page_rows env (env.uuid 0) extraction.pages) db t = db t := by
      intro t ht
      have hne : .document ≠ t ∧ .job ≠ t ∧ .document_page ≠ t := by
        cases t <;> first | exact absurd ht (by decide) | decide
      rw [with_pages, inserted_all_ne _ _ hne.2.2, with_job_ne hne.2.1,
        Schema.effect_insert_ne _ _ hne.1]
    refine (h.congr hsame).audit (hrow _ case_id c hc ?_)
    intro c' hc'
    rwa [hsame .case_ (by decide)]
  | create_event case_id body c hc =>
    have hentry : Asserted db (new_event env account case_id body) :=
      ⟨rfl, rfl, rfl, rfl, c, hc.mem, hc.id, by rw [hc.owner]; rfl⟩
    refine (h.insert_event hentry).audit (hrow _ case_id c hc ?_)
    intro c' hc'
    rwa [Schema.effect_insert_ne _ _ (by decide)]
  | create_note case_id event_id body c hc e he hid hin =>
    -- the entry was recorded by the owner of its case, who is the caller
    obtain ⟨c', hc', hid', hauthor⟩ := (h.events e he).author
    have hsame : c' = c := hcons.eq_of_pk hc' hc.mem (hid'.trans (hin.trans hc.id.symm))
    have hnote : CaseEvent.recorded_by_user_id e = some account.id := by
      rw [hauthor, hsame, hc.owner]
    refine (h.insert_note ⟨e, he, hid, hnote⟩).audit (hrow _ case_id c hc ?_)
    intro c' hc'
    rwa [Schema.effect_insert_ne _ _ (by decide)]

/-! ### Every run -/

/-- The inserts a route may make into the case file, and the routes that make them. -/
theorem on_cases_of_insert {env : Env} {route : Route Token} {t : Table} {row : Row t}
    (ht : t ∈ case_file) (hins : permits_insert srv env route t row) : route.on_cases = true := by
  have hopens : route.opens_case = true → route.on_cases = true := by
    intro h
    cases route <;> first | rfl | cases h
  have hevent : route.records_event = true → route.on_cases = true := by
    intro h
    cases route <;> first | rfl | cases h
  have hnote : route.records_note = true → route.on_cases = true := by
    intro h
    cases route <;> first | rfl | cases h
  cases t <;> try exact absurd ht (by decide)
  case case_ => exact hopens hins
  case case_audit_event => exact hins
  case party => exact absurd hins id
  case passage => exact absurd hins id
  case extracted_fact => exact absurd hins id
  case case_event => exact hevent hins.1
  case case_event_note => exact hnote hins

/-- A step that is not a case request adds no row to the case file. -/
theorem inserts_outside {s : Step Token}
    (hs : ∀ env req, s = .request env req → req.route.on_cases = false) {t : Table} {row : Row t}
    (hp : s.permits srv (.write (.insert t row))) : t ∉ case_file := by
  cases s with
  | ocr env document_id engine => exact absurd hp id
  | request env req =>
    intro ht
    have hroute := on_cases_of_insert ht hp.2
    rw [hs env req rfl] at hroute
    cases hroute

theorem OneOwner.step {s : Step Token} {w : Committed} (h : OneOwner w.db)
    (hcons : schema.Consistent w.db) : OneOwner (s.run srv w).db := by
  have houtside : (∀ env req, s = .request env req → req.route.on_cases = false) →
      OneOwner (s.run srv w).db := by
    intro hs
    refine Step.run_db_invariant (fun wr db hp _ hdb => hdb.statement wr ?_) h
    rintro t row rfl
    exact inserts_outside hs hp
  cases s with
  | ocr env document_id engine => exact houtside fun _ _ heq => (by cases heq)
  | request env req =>
    cases hroute : req.route.on_cases with
    | false => exact houtside fun _ _ heq => (by cases heq; exact hroute)
    | true =>
      show OneOwner (serve srv env req w).2.db
      rcases @serve_on_cases _ srv env _ hroute w with
        ⟨auth, reply, row, db, _, hacc, _, hdb⟩ | ⟨_, hdb⟩
      · rw [hdb]
        exact h.access hcons hacc
      · rw [hdb]
        exact h

/-- **One owner.** In every reachable state the entries, notes and audit rows of
    a case name its owner. -/
theorem Reaches.oneOwner {C : History Token → Step Token → Prop} {h : History Token}
    (hr : Reaches srv C .start h) : OneOwner h.world.db :=
  hr.invariant (I := fun h => OneOwner h.world.db) oneOwner_empty
    fun _ _ hr hown _ => hown.step hr.consistent

end CounselReady
