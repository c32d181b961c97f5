import CounselReady.Framework.SideBySide
import CounselReady.Guarantees.DeletionCascade
import CounselReady.Guarantees.LiveSession

/-! # A Case Request in Two States

    The case, document and timeline routes read nothing but rows of the account
    that asks. So in two states that agree on the account's rows they take the
    same course.

    * `Setting`: the two states, and what the run has established of both.
    * `Reads`: a handler that, from those states, ends the same way in both.
    * `Writes`: one that does so wherever the same rows have been added since.
-/

namespace CounselReady

open Relational Framework Handler Prog

variable {Token : Type} {srv : Server Token} {env : Env} {A : Uuid} {α β : Type}

/-! ### What is an account's own -/

/-- The tables of a case file, and the two behind a sign-in. -/
def case_file_tables : List Table :=
  [.user_account, .user_session, .case_, .document, .document_page, .passage, .case_event,
   .case_event_note]

instance (db : Database) (A : Uuid) : (t : Table) → (r : Row t) → Decidable (OwnedBy db A t r)
  | .user_account, (r : UserAccount) => inferInstanceAs (Decidable (r.id = A))
  | .user_session, (r : UserSession) => inferInstanceAs (Decidable (r.user_id = A))
  | .used_refresh_token, (r : UsedRefreshToken) =>
      inferInstanceAs (Decidable (∃ s ∈ db .user_session,
        UserSession.id s = r.session_id ∧ UserSession.user_id s = A))
  | .auth_event, (r : AuthEvent) => inferInstanceAs (Decidable (r.user_id = some A))
  | .case_, (r : Case) => inferInstanceAs (Decidable (r.owner_id = A))
  | .case_audit_event, (r : CaseAuditEvent) =>
      inferInstanceAs (Decidable (r.actor_user_id = some A))
  | .party, _ => inferInstanceAs (Decidable False)
  | .document, (r : Document) =>
      inferInstanceAs (Decidable (∃ c ∈ db .case_, Case.id c = r.case_id ∧ Case.owner_id c = A))
  | .document_page, (r : DocumentPage) =>
      inferInstanceAs (Decidable (∃ d ∈ db .document, Document.id d = r.document_id ∧
        ∃ c ∈ db .case_, Case.id c = Document.case_id d ∧ Case.owner_id c = A))
  | .passage, _ => inferInstanceAs (Decidable False)
  | .extracted_fact, _ => inferInstanceAs (Decidable False)
  | .case_event, (r : CaseEvent) => inferInstanceAs (Decidable (r.recorded_by_user_id = some A))
  | .case_event_note, (r : CaseEventNote) => inferInstanceAs (Decidable (r.author_user_id = A))
  | .user_mfa, (r : UserMfa) => inferInstanceAs (Decidable (r.user_id = A))
  | .recovery_code, (r : RecoveryCode) => inferInstanceAs (Decidable (r.user_id = A))
  | .passkey, (r : Passkey) => inferInstanceAs (Decidable (r.user_id = A))
  | .passkey_challenge, (r : PasskeyChallenge) => inferInstanceAs (Decidable (r.user_id = some A))
  | .job, _ => inferInstanceAs (Decidable False)

def rows_of (db : Database) (A : Uuid) (t : Table) : List (Row t) :=
  (db t).filter (fun r => decide (OwnedBy db A t r))

/-- The key of an object in one of the account's cases. -/
def KeyOf (db : Database) (A : Uuid) (key : String) : Prop :=
  ∃ c ∈ db .case_, Case.owner_id c = A ∧ (Case.id c).owns_key key

/-- The states agree on the account's rows and on its blobs. -/
structure AgreeOn (A : Uuid) (w₁ w₂ : Committed) : Prop where
  rows : ∀ t ∈ case_file_tables, rows_of w₁.db A t = rows_of w₂.db A t
  blobs : ∀ key, KeyOf w₁.db A key → w₁.ext.store key = w₂.ext.store key

/-- The request carries a token of this account, or none that is accepted. -/
def ActsAs (srv : Server Token) (env : Env) (req : Request Token) (A : Uuid) : Prop :=
  ∀ token, req.credentials = some token → ∀ claims,
    decode_access_token srv token env.now = some claims → claims.user_id = A

/-! ### Two states -/

/-- What a run establishes of the state that a request of the account finds. -/
structure Ready (srv : Server Token) (env : Env) (credentials : Option Token) (A : Uuid)
    (w : Committed) : Prop where
  consistent : schema.Consistent w.db
  one_owner : OneOwner w.db
  fresh : ∀ t, ∀ r ∈ w.db t, ∀ i, row_pk t r ≠ env.uuid i
  token : ∀ token, credentials = some token → ∀ claims,
    decode_access_token srv token env.now = some claims → claims.user_id = A ∧
      ∀ s ∈ w.db .user_session, UserSession.id s = claims.session_id → s.user_id = A

structure Setting (srv : Server Token) (env : Env) (credentials : Option Token) (A : Uuid)
    (w₁ w₂ : Committed) : Prop where
  ready : ∀ w ∈ [w₁, w₂], Ready srv env credentials A w
  agree : AgreeOn A w₁ w₂

section same
variable {credentials : Option Token} {w₁ w₂ : Committed} {t : Table} {p : Row t → Bool}

/-- A query for the account's own rows finds the same in both states. -/
theorem Setting.same (h : Setting srv env credentials A w₁ w₂) (ht : t ∈ case_file_tables)
    (hown : ∀ w ∈ [w₁, w₂], ∀ r ∈ w.db t, p r = true → OwnedBy w.db A t r) :
    SameOn w₁.db w₂.db t p := by
  refine same_on_of_parts (h.agree.rows t ht) ?_ ?_
  · intro r hr hp
    exact decide_eq_true (hown w₁ (by simp) r hr hp)
  · intro r hr hp
    exact decide_eq_true (hown w₂ (by simp) r hr hp)

theorem same_on_unseen (hnone : ∀ w ∈ [w₁, w₂], ∀ r ∈ w.db t, p r = false) :
    SameOn w₁.db w₂.db t p :=
  same_on_none (hnone w₁ (by simp)) (hnone w₂ (by simp))

/-- A row found in the first state that the account owns is in both. -/
theorem Setting.both (h : Setting srv env credentials A w₁ w₂) (ht : t ∈ case_file_tables)
    {r : Row t} (hr : r ∈ w₁.db t) (hown : OwnedBy w₁.db A t r) :
    ∀ w ∈ [w₁, w₂], r ∈ w.db t ∧ OwnedBy w.db A t r := by
  have hmem : r ∈ rows_of w₁.db A t := List.mem_filter.mpr ⟨hr, decide_eq_true hown⟩
  have hmem₂ : r ∈ rows_of w₂.db A t := h.agree.rows t ht ▸ hmem
  obtain ⟨hr₂, hown₂⟩ := List.mem_filter.mp hmem₂
  intro w hw
  rcases List.mem_pair.mp hw with rfl | rfl
  · exact ⟨hr, hown⟩
  · exact ⟨hr₂, of_decide_eq_true hown₂⟩

/-! ### The queries of the case routes -/

theorem Setting.account (h : Setting srv env credentials A w₁ w₂) :
    SameOn w₁.db w₂.db .user_account (fun a : UserAccount => a.id == A) :=
  h.same (by decide) fun _ _ _ _ hp => beq_iff_eq.mp hp

theorem Setting.cases (h : Setting srv env credentials A w₁ w₂) :
    SameOn w₁.db w₂.db .case_ (fun c : Case => c.owner_id == A) :=
  h.same (by decide) fun _ _ _ _ hp => beq_iff_eq.mp hp

theorem Setting.case_by_id (h : Setting srv env credentials A w₁ w₂) (case_id : Uuid) :
    SameOn w₁.db w₂.db .case_ (fun c : Case => c.id == case_id && c.owner_id == A) :=
  h.cases.narrow (fun _ _ hp => (Bool.and_eq_true_iff.mp hp).2)
    (fun _ _ hp => (Bool.and_eq_true_iff.mp hp).2)

/-- One of the account's cases, in both states. -/
def CaseOf (A : Uuid) (w₁ w₂ : Committed) (c : Case) : Prop :=
  c.owner_id = A ∧ ∀ w ∈ [w₁, w₂], c ∈ w.db .case_

variable {c : Case}

/-- Only the case itself has its id. -/
theorem CaseOf.key (hc : CaseOf A w₁ w₂ c) (h : Setting srv env credentials A w₁ w₂) :
    SameOn w₁.db w₂.db .case_ (fun r => decide (row_pk .case_ r = c.id)) := by
  refine h.same (by decide) ?_
  intro w hw r hr hp
  have hid : Case.id r = c.id := of_decide_eq_true hp
  have heq : r = c := (h.ready w hw).consistent.eq_of_pk hr (hc.2 w hw) hid
  rw [heq]
  exact hc.1

theorem CaseOf.documents (hc : CaseOf A w₁ w₂ c) (h : Setting srv env credentials A w₁ w₂) :
    SameOn w₁.db w₂.db .document (fun d : Document => d.case_id == c.id) := by
  refine h.same (by decide) ?_
  intro w hw d _ hp
  exact ⟨c, hc.2 w hw, (beq_iff_eq.mp hp).symm, hc.1⟩

theorem CaseOf.events (hc : CaseOf A w₁ w₂ c) (h : Setting srv env credentials A w₁ w₂) :
    SameOn w₁.db w₂.db .case_event (fun e : CaseEvent => e.case_id == c.id) := by
  refine h.same (by decide) ?_
  intro w hw e he hp
  -- the author of an entry is the owner of its case
  obtain ⟨c', hc', hid, hauthor⟩ := ((h.ready w hw).one_owner.events e he).author
  have hcase : Case.id c' = c.id := hid.trans (beq_iff_eq.mp hp)
  have heq : c' = c := (h.ready w hw).consistent.eq_of_pk hc' (hc.2 w hw) hcase
  rw [heq, hc.1] at hauthor
  exact hauthor

/-- One of the account's documents, in both states. -/
def DocumentOf (A : Uuid) (w₁ w₂ : Committed) (d : Document) : Prop :=
  ∀ w ∈ [w₁, w₂], d ∈ w.db .document ∧ OwnedBy w.db A .document d

theorem DocumentOf.pages {d : Document} (hd : DocumentOf A w₁ w₂ d)
    (h : Setting srv env credentials A w₁ w₂) :
    SameOn w₁.db w₂.db .document_page (fun p : DocumentPage => p.document_id == d.id) := by
  refine h.same (by decide) ?_
  intro w hw p _ hp
  exact ⟨d, (hd w hw).1, (beq_iff_eq.mp hp).symm, (hd w hw).2⟩

/-- One of the account's entries, in both states. -/
def EntryOf (A : Uuid) (w₁ w₂ : Committed) (e : CaseEvent) : Prop :=
  ∀ w ∈ [w₁, w₂], e ∈ w.db .case_event ∧ OwnedBy w.db A .case_event e

theorem EntryOf.key {e : CaseEvent} (he : EntryOf A w₁ w₂ e)
    (h : Setting srv env credentials A w₁ w₂) :
    SameOn w₁.db w₂.db .case_event (fun r => decide (row_pk .case_event r = e.id)) := by
  refine h.same (by decide) ?_
  intro w hw r hr hp
  have hid : CaseEvent.id r = e.id := of_decide_eq_true hp
  have heq : r = e := (h.ready w hw).consistent.eq_of_pk hr (he w hw).1 hid
  rw [heq]
  exact (he w hw).2

theorem Setting.notes (h : Setting srv env credentials A w₁ w₂) {es : List CaseEvent}
    (hes : ∀ e ∈ es, EntryOf A w₁ w₂ e) :
    SameOn w₁.db w₂.db .case_event_note
      (fun n : CaseEventNote => (es.map CaseEvent.id).contains n.event_id) := by
  refine h.same (by decide) ?_
  intro w hw n hn hp
  obtain ⟨e, he, hid⟩ := List.mem_map.mp (List.contains_iff_mem.mp hp)
  obtain ⟨e', he', hid', hauthor⟩ := (h.ready w hw).one_owner.notes n hn
  have heq : e' = e :=
    (h.ready w hw).consistent.eq_of_pk he' (hes e he w hw).1 (hid'.trans hid.symm)
  rw [heq] at hauthor
  exact Option.some.inj (hauthor.symm.trans (hes e he w hw).2)

/-- Nothing has an id that the request draws. -/
theorem Setting.drawn (h : Setting srv env credentials A w₁ w₂) (t : Table) (i : Nat) :
    SameOn w₁.db w₂.db t (fun r => decide (row_pk t r = env.uuid i)) :=
  same_on_unseen fun w hw r hr => decide_eq_false ((h.ready w hw).fresh t r hr i)

/-- The routes write no passage. -/
theorem Setting.no_passages (h : Setting srv env credentials A w₁ w₂) {p : Passage → Bool} :
    SameOn w₁.db w₂.db .passage p := by
  refine same_on_unseen ?_
  intro w hw r hr
  rw [(h.ready w hw).one_owner.passages] at hr
  cases hr

end same

/-! ### The rows that are added -/

section admits
variable {credentials : Option Token} {w₁ w₂ : Committed} {account : UserAccount}

/-- A row with an id of its own, in a table where nothing else could collide with it. -/
theorem Setting.new_row (h : Setting srv env credentials A w₁ w₂) {t : Table} {row : Row t}
    {i : Nat} (hid : row_pk t row = env.uuid i)
    (hclash : ∀ w ∈ [w₁, w₂], ∀ r ∈ w.db t, row_clash t r row = false) :
    SameOn w₁.db w₂.db t (fun r => decide (schema.pk t r = schema.pk t row) ||
      schema.clash t r row) := by
  refine same_on_unseen ?_
  intro w hw r hr
  have hpk : schema.pk t r ≠ schema.pk t row := by
    intro heq
    exact (h.ready w hw).fresh t r hr i (heq.trans hid)
  have hno : schema.clash t r row = false := hclash w hw r hr
  simp [hpk, hno]

theorem Setting.account_key (h : Setting srv env credentials A w₁ w₂) :
    SameOn w₁.db w₂.db .user_account (fun r => decide (row_pk .user_account r = A)) :=
  h.account.narrow (fun _ _ hp => beq_iff_eq.mpr (of_decide_eq_true hp))
    (fun _ _ hp => beq_iff_eq.mpr (of_decide_eq_true hp))

theorem Setting.admits_case (h : Setting srv env credentials A w₁ w₂) (hid : account.id = A)
    (title : String) (court case_number : Option String) :
    AdmitsAlike schema w₁.db w₂.db .case_ (new_case env account title court case_number) where
  rows := h.new_row (i := 0) rfl fun _ _ _ _ => rfl
  targets := by
    intro k hk j hj
    obtain rfl := List.mem_singleton.mp hk
    obtain rfl : account.id = j := Option.some.inj hj
    rw [hid]
    exact h.account_key

/-- The audit row names the account, and a case that both states know, or none. -/
theorem Setting.admits_audit (h : Setting srv env credentials A w₁ w₂) (hid : account.id = A)
    (i : Nat) {case_id : Option Uuid} (action : CaseAction) (detail : Option (List (String × Nat)))
    (hcase : ∀ j, case_id = some j →
      SameOn w₁.db w₂.db .case_ (fun r => decide (row_pk .case_ r = j))) :
    AdmitsAlike schema w₁.db w₂.db .case_audit_event
      (access_row (env.uuid i) account case_id action detail) where
  rows := h.new_row (i := i) rfl fun _ _ _ _ => rfl
  targets := by
    intro k hk j hj
    rcases List.mem_pair.mp hk with rfl | rfl
    · obtain rfl : account.id = j := Option.some.inj hj
      rw [hid]
      exact h.account_key
    · exact hcase j hj

theorem Setting.admits_event (h : Setting srv env credentials A w₁ w₂) (hid : account.id = A)
    {c : Case} (hc : CaseOf A w₁ w₂ c) (body : CreateEventRequest) :
    AdmitsAlike schema w₁.db w₂.db .case_event (new_event env account c.id body) where
  rows := h.new_row (i := 0) rfl fun _ _ _ _ => rfl
  targets := by
    intro k hk j hj
    simp only [schema, row_keys, List.mem_cons, List.not_mem_nil, or_false] at hk
    rcases hk with rfl | rfl | rfl | rfl | rfl
    · obtain rfl : c.id = j := Option.some.inj hj
      exact hc.key h
    · cases hj
    · obtain rfl : account.id = j := Option.some.inj hj
      rw [hid]
      exact h.account_key
    · cases hj
    · cases hj

theorem Setting.admits_note (h : Setting srv env credentials A w₁ w₂) (hid : account.id = A)
    {e : CaseEvent} (he : EntryOf A w₁ w₂ e) (body : String) :
    AdmitsAlike schema w₁.db w₂.db .case_event_note (new_note env account e.id body) where
  rows := h.new_row (i := 0) rfl fun _ _ _ _ => rfl
  targets := by
    intro k hk j hj
    rcases List.mem_pair.mp hk with rfl | rfl
    · obtain rfl : e.id = j := Option.some.inj hj
      exact he.key h
    · obtain rfl : account.id = j := Option.some.inj hj
      rw [hid]
      exact h.account_key

/-- A new document collides with a document of its own case at most. -/
theorem Setting.admits_document (h : Setting srv env credentials A w₁ w₂) {c : Case}
    (hc : CaseOf A w₁ w₂ c) {document : Document} (hid : document.id = env.uuid 0)
    (hcase : document.case_id = c.id) :
    AdmitsAlike schema w₁.db w₂.db .document document where
  rows := by
    have hcollides : ∀ w ∈ [w₁, w₂], ∀ d ∈ w.db .document,
        (decide (schema.pk .document d = schema.pk .document document) ||
          schema.clash .document d document) = true → Document.case_id d = c.id := by
      intro w hw d hd hp
      have hpk : row_pk .document d ≠ document.id :=
        hid ▸ (h.ready w hw).fresh .document d hd 0
      have hsame : schema.clash .document d document = true := by
        rcases Bool.or_eq_true_iff.mp hp with heq | hclash
        · exact absurd (of_decide_eq_true heq) hpk
        · exact hclash
      rw [← hcase]
      exact beq_iff_eq.mp (Bool.and_eq_true_iff.mp hsame).1
    exact (hc.documents h).narrow
      (fun d hd hp => beq_iff_eq.mpr (hcollides w₁ (by simp) d hd hp))
      (fun d hd hp => beq_iff_eq.mpr (hcollides w₂ (by simp) d hd hp))
  targets := by
    intro k hk j hj
    obtain rfl := List.mem_singleton.mp hk
    obtain rfl : document.case_id = j := Option.some.inj hj
    rw [hcase]
    exact hc.key h

theorem Setting.admits_job (h : Setting srv env credentials A w₁ w₂) (document_id : Uuid) :
    AdmitsAlike schema w₁.db w₂.db .job (ocr_job env document_id) where
  rows := h.new_row (i := 1) rfl fun _ _ _ _ => rfl
  targets := by
    intro k hk
    cases hk

/-- The pages of a document that neither state has. -/
theorem Setting.admits_page (h : Setting srv env credentials A w₁ w₂) {page : DocumentPage}
    {i : Nat} (hid : page.id = env.uuid i) (hdocument : page.document_id = env.uuid 0) :
    AdmitsAlike schema w₁.db w₂.db .document_page page where
  rows := by
    refine h.new_row (i := i) hid ?_
    intro w hw p hp
    obtain ⟨d, hd, hpk⟩ := (h.ready w hw).consistent.target hp (List.mem_singleton_self _) rfl
    have hne : DocumentPage.document_id p ≠ page.document_id := by
      rw [hdocument]
      intro heq
      exact (h.ready w hw).fresh .document d hd 0 (hpk.trans heq)
    show (DocumentPage.document_id p == page.document_id && _) = false
    rw [beq_false_of_ne hne, Bool.false_and]
  targets := by
    intro k hk j hj
    obtain rfl := List.mem_singleton.mp hk
    obtain rfl : page.document_id = j := Option.some.inj hj
    rw [hdocument]
    exact h.drawn .document 0

end admits

/-! ### The same course -/

/-- What lies outside: the account's blobs are the same, and the rest is as the
    request found it. -/
structure SameOutside (A : Uuid) (w₁ w₂ : Committed) (o₁ o₂ : Outside) : Prop where
  outcomes : o₁.outcomes = o₂.outcomes
  blobs : ∀ key, KeyOf w₁.db A key → o₁.store key = o₂.store key
  others : ∀ key, ¬ KeyOf w₁.db A key →
    o₁.store key = w₁.ext.store key ∧ o₂.store key = w₂.ext.store key

/-- From the two states themselves, the handler ends the same way in both. -/
def Reads (env : Env) (A : Uuid) (w₁ w₂ : Committed) (p : Handler α) : Prop :=
  wp₂ (perform schema run_ext) p p (fun _ => Abreast w₁.db w₂.db (SameOutside A w₁ w₂))
    (w₁.begin env) (w₂.begin env)

/-- And so it does wherever the same rows have been added to both. -/
def Writes (A : Uuid) (w₁ w₂ : Committed) (p : Handler α) : Prop :=
  ∀ s₁ s₂, Abreast w₁.db w₂.db (SameOutside A w₁ w₂) s₁ s₂ →
    wp₂ (perform schema run_ext) p p (fun _ => Abreast w₁.db w₂.db (SameOutside A w₁ w₂)) s₁ s₂

section rules
variable {w₁ w₂ : Committed}

theorem abreast_start (env : Env)
    (hblobs : ∀ key, KeyOf w₁.db A key → w₁.ext.store key = w₂.ext.store key) :
    Abreast w₁.db w₂.db (SameOutside A w₁ w₂) (w₁.begin env) (w₂.begin env) :=
  abreast_begin env.faults ⟨rfl, hblobs, fun _ _ => ⟨rfl, rfl⟩⟩

theorem Writes.reads {p : Handler α} (hp : Writes A w₁ w₂ p)
    (h : Abreast w₁.db w₂.db (SameOutside A w₁ w₂) (w₁.begin env) (w₂.begin env)) :
    Reads env A w₁ w₂ p := hp _ _ h

/-- A handler that reads alike is answered alike, and what is committed is alike. -/
theorem Reads.get_session {p : Handler α} (h : Reads env A w₁ w₂ p) :
    (CounselReady.get_session env p w₁).1 = (CounselReady.get_session env p w₂).1 ∧
      (∃ added, (CounselReady.get_session env p w₁).2.db = grown w₁.db added ∧
        (CounselReady.get_session env p w₂).2.db = grown w₂.db added) ∧
      SameOutside A w₁ w₂ (CounselReady.get_session env p w₁).2.ext
        (CounselReady.get_session env p w₂).2.ext :=
  transact_abreast h

theorem writes_idle {p : Handler α} (hp : Every (fun _ => False) p) : Writes A w₁ w₂ p :=
  fun _ _ h => wp₂_idle hp fun _ => h

theorem writes_pure (a : α) : Writes A w₁ w₂ (pure a : Handler α) := writes_idle (every_pure a)

theorem writes_raise (e : Exc) : Writes A w₁ w₂ (.raise e : Handler α) :=
  writes_idle (every_raise e)

theorem writes_bind {p : Handler β} {f : β → Handler α} (hp : Writes A w₁ w₂ p)
    (hf : ∀ b, Writes A w₁ w₂ (f b)) : Writes A w₁ w₂ (p >>= f) := by
  intro s₁ s₂ h
  refine wp₂_bind (wp₂_mono (hp s₁ s₂ h) ?_)
  intro r t₁ t₂ ht
  cases r with
  | error e => exact ht
  | ok b => exact hf b t₁ t₂ ht

/-- What is read first, and what is written after it. -/
theorem reads_bind {p : Handler β} {f : β → Handler α} (hp : Reads env A w₁ w₂ p)
    (hf : ∀ b, Writes A w₁ w₂ (f b)) : Reads env A w₁ w₂ (p >>= f) := by
  refine wp₂_bind (wp₂_mono hp ?_)
  intro r t₁ t₂ ht
  cases r with
  | error e => exact ht
  | ok b => exact hf b t₁ t₂ ht

theorem reads_rethrow {g : Exc → Exc} {p : Handler α} (hp : Reads env A w₁ w₂ p) :
    Reads env A w₁ w₂ (p.rethrow g) := by
  refine wp₂_rethrow (wp₂_mono hp ?_)
  intro r t₁ t₂ ht
  cases r <;> exact ht

/-- A part that calls nothing comes to one result. -/
theorem reads_idle_bind {p : Handler β} {f : β → Handler α} (hp : Every (fun _ => False) p)
    (h : Abreast w₁.db w₂.db (SameOutside A w₁ w₂) (w₁.begin env) (w₂.begin env))
    (hf : ∀ b, Reads env A w₁ w₂ (f b)) : Reads env A w₁ w₂ (p >>= f) := by
  refine wp₂_bind (wp₂_idle hp ?_)
  intro r
  cases r with
  | error e => exact h
  | ok b => exact hf b

theorem reads_some_or_bind {x : Option β} {e : Exc} {f : β → Handler α}
    (h : Abreast w₁.db w₂.db (SameOutside A w₁ w₂) (w₁.begin env) (w₂.begin env))
    (hf : ∀ b, x = some b → Reads env A w₁ w₂ (f b)) : Reads env A w₁ w₂ (some_or x e >>= f) := by
  cases x with
  | none => exact wp₂_bind (wp₂_raise h)
  | some b => exact wp₂_bind (wp₂_pure (hf b rfl))

theorem reads_require_bind {c : Bool} {e : Exc} {f : Unit → Handler α}
    (h : Abreast w₁.db w₂.db (SameOutside A w₁ w₂) (w₁.begin env) (w₂.begin env))
    (hf : c = true → Reads env A w₁ w₂ (f ())) : Reads env A w₁ w₂ (require c e >>= f) := by
  cases c with
  | false => exact wp₂_bind (wp₂_raise h)
  | true => exact wp₂_bind (wp₂_pure (hf rfl))

theorem reads_select_bind {t : Table} {p : Row t → Bool} {f : List (Row t) → Handler α}
    (h : Abreast w₁.db w₂.db (SameOutside A w₁ w₂) (w₁.begin env) (w₂.begin env))
    (hsame : SameOn w₁.db w₂.db t p) (hf : Reads env A w₁ w₂ (f ((w₁.db t).filter p))) :
    Reads env A w₁ w₂ (select t p >>= f) :=
  wp₂_bind (wp₂_select h hsame hf)

theorem reads_select_one_bind {t : Table} {p : Row t → Bool} {f : Option (Row t) → Handler α}
    (h : Abreast w₁.db w₂.db (SameOutside A w₁ w₂) (w₁.begin env) (w₂.begin env))
    (hsame : SameOn w₁.db w₂.db t p) (hnone : Reads env A w₁ w₂ (f none))
    (hsome : ∀ r ∈ w₁.db t, p r = true → Reads env A w₁ w₂ (f (some r))) :
    Reads env A w₁ w₂ (select_one t p >>= f) := by
  unfold select_one
  rw [do_assoc]
  refine reads_select_bind h hsame ?_
  match hrows : (w₁.db t).filter p with
  | [] => exact hnone
  | [r] =>
    have hmem : r ∈ (w₁.db t).filter p := by simp [hrows]
    exact hsome r (List.mem_filter.mp hmem).1 (List.mem_filter.mp hmem).2
  | _ :: _ :: _ => exact wp₂_raise h

theorem writes_insert {t : Table} {row : Row t} (hadmits : AdmitsAlike schema w₁.db w₂.db t row) :
    Writes A w₁ w₂ (insert t row) :=
  fun _ _ h => wp₂_insert h hadmits fun _ _ _ ht => ht

theorem writes_insert_all {t : Table} {rows : List (Row t)}
    (hadmits : ∀ row ∈ rows, AdmitsAlike schema w₁.db w₂.db t row) :
    Writes A w₁ w₂ (insert_all t rows) := by
  induction rows with
  | nil => exact writes_pure ()
  | cons row rows ih =>
    exact writes_bind (writes_insert (hadmits row List.mem_cons_self))
      fun _ => ih fun r hr => hadmits r (List.mem_cons_of_mem _ hr)

end rules

/-! ### The shared steps -/

section steps
variable {credentials : Option Token} {w₁ w₂ : Committed}

theorem Setting.start (h : Setting srv env credentials A w₁ w₂) :
    Abreast w₁.db w₂.db (SameOutside A w₁ w₂) (w₁.begin env) (w₂.begin env) :=
  abreast_start env h.agree.blobs

/-- The gate looks at the account's session and at the account. -/
theorem reads_current_user_bind (h : Setting srv env credentials A w₁ w₂)
    {f : UserAccount → Handler α}
    (hf : ∀ account : UserAccount, account.id = A → Reads env A w₁ w₂ (f account)) :
    Reads env A w₁ w₂ (current_user srv env credentials >>= f) := by
  unfold current_user authenticated load_active_session
  simp only [do_assoc]
  refine reads_some_or_bind h.start fun token htoken => ?_
  refine reads_some_or_bind h.start fun claims hclaims => ?_
  have hsessions : SameOn w₁.db w₂.db .user_session
      (fun s : UserSession => s.id == claims.session_id) := by
    refine h.same (by decide) ?_
    intro w hw s hs hp
    exact ((h.ready w hw).token token htoken claims hclaims).2 s hs (beq_iff_eq.mp hp)
  have huser : claims.user_id = A :=
    ((h.ready w₁ (by simp)).token token htoken claims hclaims).1
  refine reads_select_one_bind h.start hsessions ?_ fun us _ _ => ?_
  all_goals
    refine reads_idle_bind (every_pure _) h.start fun live => ?_
    refine reads_require_bind h.start fun _ => ?_
    rw [huser]
    refine reads_select_one_bind h.start h.account ?_ fun account _ hid => ?_
    all_goals
      refine reads_some_or_bind h.start fun a ha => ?_
      cases ha
  all_goals
    refine reads_require_bind h.start fun _ => ?_
    exact hf account (beq_iff_eq.mp hid)

theorem reads_owned_case_bind (h : Setting srv env credentials A w₁ w₂) {account : UserAccount}
    (hid : account.id = A) {case_id : Uuid} {f : Case → Handler α}
    (hf : ∀ c, CaseOf A w₁ w₂ c → Reads env A w₁ w₂ (f c)) :
    Reads env A w₁ w₂ (owned_case account case_id >>= f) := by
  unfold owned_case
  rw [do_assoc, hid]
  refine reads_select_one_bind h.start (h.case_by_id case_id) ?_ fun c hc hp => ?_
  · exact reads_some_or_bind h.start fun _ hnone => by cases hnone
  · refine reads_some_or_bind h.start fun c' hc' => ?_
    cases hc'
    have howner : Case.owner_id c = A := beq_iff_eq.mp (Bool.and_eq_true_iff.mp hp).2
    have hboth := h.both (t := .case_) (by decide) hc howner
    exact hf c ⟨howner, fun w hw => (hboth w hw).1⟩

theorem reads_owned_document_bind (h : Setting srv env credentials A w₁ w₂) {c : Case}
    (hc : CaseOf A w₁ w₂ c) {document_id : Uuid} {f : Document → Handler α}
    (hf : ∀ d, DocumentOf A w₁ w₂ d → d.case_id = c.id → Reads env A w₁ w₂ (f d)) :
    Reads env A w₁ w₂ (owned_document c document_id >>= f) := by
  unfold owned_document
  rw [do_assoc]
  have hsame : SameOn w₁.db w₂.db .document (fun d : Document =>
      d.id == document_id && d.case_id == c.id) :=
    (hc.documents h).narrow (fun _ _ hp => (Bool.and_eq_true_iff.mp hp).2)
      (fun _ _ hp => (Bool.and_eq_true_iff.mp hp).2)
  refine reads_select_one_bind h.start hsame ?_ fun d hd hp => ?_
  · exact reads_some_or_bind h.start fun _ hnone => by cases hnone
  · refine reads_some_or_bind h.start fun d' hd' => ?_
    cases hd'
    have hcase : Document.case_id d = c.id := beq_iff_eq.mp (Bool.and_eq_true_iff.mp hp).2
    refine hf d (h.both (t := .document) (by decide) hd ?_) hcase
    exact ⟨c, hc.2 w₁ (by simp), hcase.symm, hc.1⟩

/-- An entry of the account's case is the account's. -/
theorem CaseOf.entry {c : Case} (hc : CaseOf A w₁ w₂ c)
    (h : Setting srv env credentials A w₁ w₂) {e : CaseEvent} (he : e ∈ w₁.db .case_event)
    (hcase : e.case_id = c.id) : EntryOf A w₁ w₂ e := by
  refine h.both (t := .case_event) (by decide) he ?_
  obtain ⟨c', hc', hid, hauthor⟩ := ((h.ready w₁ (by simp)).one_owner.events e he).author
  have heq : c' = c :=
    (h.ready w₁ (by simp)).consistent.eq_of_pk hc' (hc.2 w₁ (by simp)) (hid.trans hcase)
  rw [heq, hc.1] at hauthor
  exact hauthor

theorem reads_owned_event_bind (h : Setting srv env credentials A w₁ w₂) {c : Case}
    (hc : CaseOf A w₁ w₂ c) {event_id : Uuid} {f : CaseEvent → Handler α}
    (hf : ∀ e, EntryOf A w₁ w₂ e → Reads env A w₁ w₂ (f e)) :
    Reads env A w₁ w₂ (owned_event c event_id >>= f) := by
  unfold owned_event
  rw [do_assoc]
  have hsame : SameOn w₁.db w₂.db .case_event (fun e : CaseEvent =>
      e.id == event_id && e.case_id == c.id) :=
    (hc.events h).narrow (fun _ _ hp => (Bool.and_eq_true_iff.mp hp).2)
      (fun _ _ hp => (Bool.and_eq_true_iff.mp hp).2)
  refine reads_select_one_bind h.start hsame ?_ fun e he hp => ?_
  · exact reads_some_or_bind h.start fun _ hnone => by cases hnone
  · refine reads_some_or_bind h.start fun e' he' => ?_
    cases he'
    exact hf e (hc.entry h he (beq_iff_eq.mp (Bool.and_eq_true_iff.mp hp).2))

/-- The audit row, and the answer. -/
theorem writes_audit (h : Setting srv env credentials A w₁ w₂) {account : UserAccount}
    (hid : account.id = A) (i : Nat) {case_id : Option Uuid} (action : CaseAction)
    (detail : Option (List (String × Nat)))
    (hcase : ∀ j, case_id = some j →
      SameOn w₁.db w₂.db .case_ (fun r => decide (row_pk .case_ r = j))) (a : α) :
    Writes A w₁ w₂ (audit (env.uuid i) account case_id action detail >>= fun _ => pure a) :=
  writes_bind (writes_insert (h.admits_audit hid i action detail hcase)) fun _ => writes_pure a

/-- The audit row of one of the account's cases. -/
theorem writes_case_audit (h : Setting srv env credentials A w₁ w₂) {account : UserAccount}
    (hid : account.id = A) (i : Nat) {c : Case} (hc : CaseOf A w₁ w₂ c) (action : CaseAction)
    (detail : Option (List (String × Nat))) (a : α) :
    Writes A w₁ w₂ (audit (env.uuid i) account (some c.id) action detail >>= fun _ => pure a) := by
  refine writes_audit h hid i action detail ?_ a
  intro j hj
  obtain rfl := Option.some.inj hj
  exact hc.key h

end steps

/-! ### An upload -/

section upload
variable {credentials : Option Token} {w₁ w₂ : Committed}

theorem idle_ok_or (x : Except Exc α) : Every (fun _ => False) (ok_or x : Handler α) := by
  cases x with
  | ok a => exact every_pure a
  | error e => exact every_raise e

theorem idle_read_bounded (upload : Upload) : Every (fun _ => False)
    (read_bounded (stream upload.data) default_max_upload_bytes upload.content_length) := by
  rw [read_bounded_eq]
  repeat' split
  all_goals first
    | exact every_raise _
    | exact every_pure _

/-- A write under a key of the account's, met with the same fate. -/
theorem SameOutside.written {o₁ o₂ : Outside} (ho : SameOutside A w₁ w₂ o₁ o₂) {key : String}
    (hkey : KeyOf w₁.db A key) (data : Option Bytes) :
    SameOutside A w₁ w₂ (o₁.written key data) (o₂.written key data) where
  outcomes := congrArg List.tail ho.outcomes
  blobs := by
    intro k hk
    have houtcome : o₁.outcome = o₂.outcome := by
      unfold Outside.outcome
      rw [ho.outcomes]
    have hother := ho.blobs k hk
    unfold Outside.written
    rw [houtcome]
    dsimp only
    cases o₂.outcome with
    | works =>
      show Store.set _ _ _ k = Store.set _ _ _ k
      simp only [Store.set, hother]
    | fails => exact hother
    | fails_leaving left =>
      show Store.set _ _ _ k = Store.set _ _ _ k
      simp only [Store.set, hother]
  others := by
    intro k hk
    have hne : k ≠ key := by
      rintro rfl
      exact hk hkey
    rw [Outside.written_ne _ _ hne, Outside.written_ne _ _ hne]
    exact ho.others k hk

theorem writes_put_under {key : String} (hkey : KeyOf w₁.db A key) (data : Bytes) :
    Writes A w₁ w₂ (put key data) := by
  refine writes_bind ?_ fun done => ?_
  · intro s₁ s₂ hs
    refine wp₂_perform_ext hs ?_ (hs.ext.written hkey (some data)) fun _ _ _ ht => ht
    show (if s₁.ext.outcome = .works then _ else _) = (if s₂.ext.outcome = .works then _ else _)
    unfold Outside.outcome
    rw [hs.ext.outcomes]
  · cases done with
    | ok u => exact writes_pure ()
    | error e => exact writes_raise _

/-- The bytes go under a key of the account's case. -/
theorem writes_put {c : Case} (hc : CaseOf A w₁ w₂ c) (digest : String) (data : Bytes) :
    Writes A w₁ w₂ (put (storage_key c.id.str digest) data) :=
  writes_put_under ⟨c, hc.2 w₁ (by simp), hc.1, owns_storage_key c.id digest⟩ data

theorem writes_record_document (h : Setting srv env credentials A w₁ w₂) {c : Case}
    (hc : CaseOf A w₁ w₂ c) {document : Document} (hid : document.id = env.uuid 0)
    (hcase : document.case_id = c.id) (extraction : ExtractionResult) :
    Writes A w₁ w₂ (record_document env document extraction) := by
  refine writes_bind (writes_insert (h.admits_document hc hid hcase)) fun _ => ?_
  refine writes_bind ?_ fun _ => ?_
  · unfold queue_ocr
    split
    · exact writes_bind (writes_bind (writes_insert (h.admits_job document.id))
        fun _ => writes_pure _) fun _ => writes_pure ()
    · exact writes_pure ()
  · refine writes_insert_all ?_
    intro page hpage
    obtain ⟨i, hi, rfl⟩ := List.mem_mapIdx.mp hpage
    exact h.admits_page (i := 3 + i) rfl hid

theorem reads_ingest_document (h : Setting srv env credentials A w₁ w₂) {c : Case}
    (hc : CaseOf A w₁ w₂ c) {request : IngestRequest} (hcase : request.case_id = c.id) :
    Reads env A w₁ w₂ (ingest_document srv env request) := by
  have hsame : SameOn w₁.db w₂.db .document (fun d : Document =>
      d.case_id == request.case_id && d.content_hash == content_hash srv request.data) := by
    rw [hcase]
    exact (hc.documents h).narrow (fun _ _ hp => (Bool.and_eq_true_iff.mp hp).1)
      (fun _ _ hp => (Bool.and_eq_true_iff.mp hp).1)
  refine reads_select_one_bind h.start hsame ?_ fun existing _ _ => ?_
  · rw [hcase]
    refine Writes.reads (writes_bind (writes_put hc _ _) fun _ => ?_) h.start
    refine writes_bind (writes_idle (idle_ok_or _)) fun extraction => ?_
    exact writes_bind (writes_record_document h hc rfl hcase extraction) fun _ => writes_pure _
  · exact (writes_raise _).reads h.start

end upload

end CounselReady
