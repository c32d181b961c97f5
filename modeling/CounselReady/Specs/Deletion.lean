import CounselReady.Specs.SecondFactor

/-! # What a Deletion Request Does

    Nothing, or all of it: the account's row goes with everything that hangs
    off it, and every object recorded on a document of the account is asked to
    go. The objects are asked before the COMMIT.
-/

namespace CounselReady

open Relational Framework Handler Prog

variable {Token : Type} {srv : Server Token} {env : Env} {s : Session}

/-! ### Who may delete -/

/-- The password was right already; the second factor is off, or a code was accepted. -/
inductive Reauthenticated (srv : Server Token) (env : Env) (account : UserAccount)
    (mfa_code : Option String) (db : Database) : Database → Prop where
  | password (inactive : ∀ m ∈ db .user_mfa, UserMfa.user_id m = account.id →
      m.is_active = false) : Reauthenticated srv env account mfa_code db db
  | code (code : String) (given : mfa_code = some code) (db' : Database)
      (accepted : CodeAccepted srv env account code db db') :
      Reauthenticated srv env account mfa_code db db'

/-- The checks of `delete_own_account`; `db'` is what the code check leaves. -/
structure MayDelete (srv : Server Token) (env : Env) (credentials : Option Token)
    (password : String) (mfa_code : Option String) (acknowledge : Bool) (db : Database)
    (auth : Authenticated) (db' : Database) : Prop where
  signed_in : SignedIn srv env credentials db auth
  password : verify_password_against srv password auth.account.password_hash = true
  acknowledged : acknowledge = true
  reauthenticated : Reauthenticated srv env auth.account mfa_code db db'

theorem Reauthenticated.other {account : UserAccount} {mfa_code : Option String}
    {db db' : Database} (h : Reauthenticated srv env account mfa_code db db') {t : Table}
    (hm : .user_mfa ≠ t) (hr : .recovery_code ≠ t) : db' t = db t := by
  cases h with
  | password _ => rfl
  | code _ _ _ haccepted => exact haccepted.other hm hr

/-- The check, with the way a code is accepted. -/
theorem wps_reauthenticate_by {account : UserAccount} {password : String}
    {mfa_code : Option String} {Q : Except Exc Unit → Session → Prop}
    (herr : ∀ e faults, Q (.error e) { s with faults := faults })
    (hpassword : verify_password_against srv password account.password_hash = true →
      (∀ m ∈ s.db .user_mfa, UserMfa.user_id m = account.id → m.is_active = false) → Q (.ok ()) s)
    (hcode : verify_password_against srv password account.password_hash = true →
      ∀ code db faults, mfa_code = some code →
        CodeSpent srv env account code s.db (by_recovery srv env s.db account.id code) db →
        Q (.ok ()) { s with db := db, faults := faults }) :
    wps (reauthenticate srv env account password mfa_code) Q s := by
  refine wps_require_bind (fun _ => herr _ _) fun hright => ?_
  refine wps_is_mfa_active_bind (herr _ _) (fun m hm hid hact => ?_) fun hinactive => ?_
  · refine (wp_ite _ _).mpr ⟨fun _ => ?_, fun h => absurd rfl h⟩
    refine wps_some_or_bind (fun _ => herr _ _) fun code hgiven => ?_
    refine (wp_rethrow _ _).mpr (wps_verify_code (fun e faults => herr _ _) ?_)
    exact fun db faults hspent => hcode hright code db faults hgiven hspent
  · refine (wp_ite _ _).mpr ⟨fun h => (by cases h), fun _ => (wp_pure _).mpr ?_⟩
    exact hpassword hright hinactive

theorem wps_reauthenticate {account : UserAccount} {password : String} {mfa_code : Option String}
    {Q : Except Exc Unit → Session → Prop}
    (herr : ∀ e faults, Q (.error e) { s with faults := faults })
    (hok : verify_password_against srv password account.password_hash = true →
      ∀ db faults, Reauthenticated srv env account mfa_code s.db db →
        Q (.ok ()) { s with db := db, faults := faults }) :
    wps (reauthenticate srv env account password mfa_code) Q s := by
  refine wps_reauthenticate_by herr (fun hright hinactive => ?_) fun hright code db faults hgiven hspent => ?_
  · exact hok hright s.db s.faults (.password hinactive)
  · exact hok hright db faults (.code code hgiven db hspent.accepted)

/-! ### What goes -/

/-- An account hangs off no other row. -/
theorem account_doomed {db : Database} {t : Table} {id owner : Uuid}
    (h : (Table.user_account, owner) ∈ schema.doomed db t id) :
    (Table.user_account, owner) = (t, id) := by
  rcases Schema.doomed_sound h with heq | ⟨_, _, _, k, hk, _⟩
  · exact heq
  · cases hk

/-- The rows without the account and what hangs off it. -/
def without_account (db : Database) (id : Uuid) : Database :=
  schema.effect (.remove (schema.doomed db .user_account id)) db

/-- The outside once each of the objects has been asked to go. -/
def purge (keys : List String) (o : Outside) : Outside :=
  keys.foldl (fun o key => o.written key none) o

theorem wps_purge_objects {keys : List String} {Q : Except Exc Nat → Session → Prop}
    (hok : ∀ n, Q (.ok n) { s with ext := purge keys s.ext }) :
    wps (purge_objects keys) Q s := by
  induction keys generalizing s Q with
  | nil => exact (wp_pure _).mpr (hok 0)
  | cons key keys ih =>
    refine wps_bind (wp_perform_ext.mpr (wps_bind (ih fun n => ?_)))
    cases (run_ext (Ext.remove key) s.ext).1 with
    | ok _ => exact (wp_pure _).mpr (hok (n + 1))
    | error e => exact (wp_pure _).mpr (hok n)

theorem purge_store_of_not_mem {keys : List String} {key : String} {o : Outside}
    (h : key ∉ keys) : (purge keys o).store key = o.store key := by
  induction keys generalizing o with
  | nil => rfl
  | cons k keys ih =>
    have hne : key ≠ k := fun heq => h (heq ▸ List.mem_cons_self)
    exact (ih fun hmem => h (List.mem_cons_of_mem _ hmem)).trans (o.written_ne none hne)

/-- When every call works, nothing is left under the keys. -/
theorem purge_store_of_mem {keys : List String} {key : String} {o : Outside}
    (hworks : ∀ outcome ∈ o.outcomes, outcome = .works) (h : key ∈ keys) :
    (purge keys o).store key = none := by
  induction keys generalizing o with
  | nil => cases h
  | cons k keys ih =>
    have hout : o.outcome = .works := by
      unfold Outside.outcome
      cases hl : o.outcomes with
      | nil => rfl
      | cons x xs => simpa using hworks x (by rw [hl]; exact List.mem_cons_self)
    have hrest : ∀ outcome ∈ (o.written k none).outcomes, outcome = .works :=
      fun x hx => hworks x (List.mem_of_mem_tail hx)
    by_cases hmem : key ∈ keys
    · exact ih hrest hmem
    · have hk : key = k := by
        rcases List.mem_cons.mp h with heq | hin
        · exact heq
        · exact absurd hin hmem
      refine (purge_store_of_not_mem hmem).trans ?_
      rw [hk]
      exact Outside.written_self hout k none

/-- A document of the account goes with it. -/
theorem not_document_of_without_account {db : Database} {id : Uuid} {d : Document}
    (h : d ∈ without_account db id .document) :
    d ∈ db .document ∧ document_of db id d = false := by
  obtain ⟨d₀, hd₀, hstay, hsame⟩ := Schema.mem_effect_remove.mp h
  rw [rigid (by decide)] at hsame
  subst hsame
  refine ⟨hd₀, ?_⟩
  by_contra hof
  rw [Bool.not_eq_false] at hof
  obtain ⟨c, hc, hboth⟩ := List.any_eq_true.mp hof
  rw [Bool.and_eq_true, beq_iff_eq, beq_iff_eq] at hboth
  -- the case goes with its owner, the document with its case
  have hcase : (.case_, Case.id c) ∈ schema.doomed db .user_account id := by
    refine Schema.doomed_closed (k := belongs .user_account Case.owner_id) schema_stratified
      (by decide) hc List.mem_cons_self rfl ?_
    simp [ForeignKey.hits, belongs, hboth.2, Schema.mem_doomed_self]
  refine hstay (Schema.doomed_closed (k := belongs .case_ Document.case_id) schema_stratified
    (by decide) hd₀ List.mem_cons_self rfl ?_)
  simp [ForeignKey.hits, belongs, ← hboth.1, hcase]

/-- The rows that point at accounts alone, and belong to one: those of the account go. -/
theorem owned_without_account {db : Database} (hc : schema.Consistent db) {id : Uuid} {t : Table}
    {column : Row t → Uuid} (hkeys : row_keys t = [belongs .user_account column])
    (hne : t ≠ .user_account) :
    without_account db id t = (db t).filter (fun r => decide (column r ≠ id)) := by
  have hcascades : ∀ k ∈ schema.keys t, k.cascades = true := by
    intro k hk
    have hk : k ∈ row_keys t := hk
    rw [hkeys, List.mem_singleton] at hk
    subst hk
    rfl
  have hrigid : schema.Rigid t := Schema.rigid_of_cascades hcascades
  have hgone : ∀ r ∈ db t,
      ((t, schema.pk t r) ∈ schema.doomed db .user_account id ↔ column r = id) := by
    intro r hr
    constructor
    · intro hdoomed
      have hother : (t, schema.pk t r) ≠ (.user_account, id) := fun heq => hne (Prod.mk.inj heq).1
      obtain ⟨r', hr', hpk, k, hk, _, j, hcol, hparent⟩ := Schema.doomed_parent hdoomed hother
      obtain rfl : r' = r := hc.eq_of_pk hr' hr hpk
      have hk : k ∈ row_keys t := hk
      rw [hkeys, List.mem_singleton] at hk
      subst hk
      obtain rfl : column r' = j := Option.some.inj hcol
      exact (Prod.mk.inj (account_doomed hparent)).2
    · intro howner
      refine Schema.doomed_closed (k := belongs .user_account column) schema_stratified
        (schema_regular.ordered t) hr ?_ rfl ?_
      · show _ ∈ row_keys t
        rw [hkeys]
        exact List.mem_singleton_self _
      · simp [ForeignKey.hits, belongs, howner, Schema.mem_doomed_self]
  unfold without_account
  rw [Schema.effect_remove, List.map_congr_left (fun r _ => hrigid _ r), List.map_id']
  exact List.filter_congr fun r hr => decide_eq_decide.mpr (not_congr (hgone r hr))

/-- A case of the account goes with it. -/
theorem not_case_of_without_account {db : Database} {id : Uuid} {c : Case}
    (h : c ∈ without_account db id .case_) : c ∈ db .case_ ∧ c.owner_id ≠ id := by
  obtain ⟨c₀, hc₀, hstay, hsame⟩ := Schema.mem_effect_remove.mp h
  rw [rigid (by decide)] at hsame
  subst hsame
  refine ⟨hc₀, fun howner => hstay ?_⟩
  refine Schema.doomed_closed (k := belongs .user_account Case.owner_id) schema_stratified
    (by decide) hc₀ List.mem_cons_self rfl ?_
  simp [ForeignKey.hits, belongs, howner, Schema.mem_doomed_self]

/-- A document goes with itself, with its case or with its case's owner, and
    with nothing else. -/
theorem doomed_document {db : Database} {t₀ : Table} {i₀ i : Uuid}
    (h : (.document, i) ∈ schema.doomed db t₀ i₀) :
    t₀ = .document ∨ t₀ = .case_ ∨ (t₀ = .user_account ∧
      ∃ d ∈ db .document, Document.id d = i ∧ document_of db i₀ d = true) := by
  by_cases hd : t₀ = .document
  · exact .inl hd
  by_cases hc : t₀ = .case_
  · exact .inr (.inl hc)
  obtain ⟨d, hdmem, hdid, k, hk, _, j, hj, hgone⟩ :=
    Schema.doomed_parent h (fun heq => hd (Prod.mk.inj heq).1.symm)
  obtain rfl := List.mem_singleton.mp hk
  obtain rfl := Option.some.inj hj
  obtain ⟨c, hcmem, hcid, k, hk, _, j, hj, hgone⟩ :=
    Schema.doomed_parent hgone (fun heq => hc (Prod.mk.inj heq).1.symm)
  obtain rfl := List.mem_singleton.mp hk
  obtain rfl := Option.some.inj hj
  -- an account hangs off nothing
  rcases Schema.doomed_sound hgone with heq | ⟨_, _, _, k, hk, _⟩
  · obtain ⟨htable, howner⟩ := Prod.mk.inj heq
    refine .inr (.inr ⟨htable.symm, d, hdmem, hdid, List.any_eq_true.mpr ⟨c, hcmem, ?_⟩⟩)
    rw [Bool.and_eq_true, beq_iff_eq, beq_iff_eq]
    exact ⟨hcid, howner⟩
  · cases hk

/-- The documents that stay are those outside the account's cases. -/
theorem document_of_without_account {db : Database}
    (hpk : ∀ a ∈ db .document, ∀ b ∈ db .document, Document.id a = Document.id b → a = b)
    {id : Uuid} {d : Document} (hd : d ∈ db .document) (hof : document_of db id d = false) :
    d ∈ without_account db id .document := by
  have hrigid : schema.Rigid .document := rigid (by decide)
  refine Schema.mem_effect_remove.mpr ⟨d, hd, fun hgone => ?_, hrigid _ d⟩
  rcases doomed_document hgone with h | h | ⟨_, d', hd', hid, hof'⟩
  · cases h
  · cases h
  · rw [hpk d' hd' d hd hid, hof] at hof'
    cases hof'

/-! ### The request -/

theorem account_keys_congr {db db' : Database} (hc : db' .case_ = db .case_)
    (hd : db' .document = db .document) (id : Uuid) : account_keys db' id = account_keys db id := by
  unfold account_keys document_of
  rw [hc, hd]

/-- The account's row is deleted, or the statement fails. -/
theorem wps_delete_account_exact {account : UserAccount}
    {Q : Except Exc DeletionSummary → Session → Prop}
    (herr : ∀ v s', s'.ext = s.ext → Q (.error (.database v)) s')
    (hok : ∀ s', s'.db = without_account s.db account.id → s'.ext = s.ext →
      Q (.ok ⟨((s.db .case_).filter (fun c : Case => c.owner_id == account.id)).length,
        (account_keys s.db account.id).length, 0⟩) s') :
    wps (delete_account account) Q s := by
  refine wps_bind (wps_bind (wp_snapshot.mpr ((wp_pure _).mpr ?_)))
  refine wps_select_bind (wps_execute_bind (fun v => herr v _ rfl) fun _ => ?_)
  exact (wp_pure _).mpr (hok _ rfl rfl)

theorem wps_delete_account {account : UserAccount}
    {Q : Except Exc DeletionSummary → Session → Prop}
    (herr : ∀ v s', s'.ext = s.ext → Q (.error (.database v)) s')
    (hok : ∀ summary s', s'.db = without_account s.db account.id → s'.ext = s.ext →
      Q (.ok summary) s') :
    wps (delete_account account) Q s := wps_delete_account_exact herr (hok _)

/-- **Deletion.** The account goes after its checks, then its objects; a failure before that
    leaves the store alone. -/
theorem wps_delete_own_account {credentials : Option Token} {password : String}
    {mfa_code : Option String} {acknowledge : Bool}
    {Q : Except Exc (Reply Token) → Session → Prop}
    (herr : ∀ e s', s'.ext = s.ext → Q (.error e) s')
    (hok : ∀ auth db reply s',
      MayDelete srv env credentials password mfa_code acknowledge s.db auth db →
      s'.db = without_account db auth.account.id →
      s'.ext = purge (account_keys s.db auth.account.id) s.ext → Q (.ok reply) s') :
    wps (delete_own_account srv env credentials password mfa_code acknowledge) Q s := by
  refine wps_current_user_bind (fun e => herr e _ rfl) fun auth hauth => ?_
  refine wps_require_bind (fun _ => herr _ _ rfl) fun _ => ?_
  refine wps_require_bind (fun _ => herr _ _ rfl) fun _ => ?_
  refine wps_require_bind (fun _ => herr _ _ rfl) fun hack => ?_
  refine wps_bind (wps_reauthenticate (fun e _ => herr e _ rfl) fun hpassword db faults hre => ?_)
  have hkeys : account_keys db auth.account.id = account_keys s.db auth.account.id :=
    account_keys_congr (hre.other (by decide) (by decide)) (hre.other (by decide) (by decide)) _
  refine wps_bind (wps_bind (wp_snapshot.mpr ((wp_pure _).mpr ?_)))
  refine wps_bind (wps_delete_account (fun v s' hext => herr _ _ hext) fun summary s' hdb hext => ?_)
  refine wps_bind (wps_purge_objects fun n => (wp_pure _).mpr ?_)
  exact hok auth db _ _ ⟨hauth, hpassword, hack, hre⟩ hdb (by rw [hkeys, hext])

/-- A document that outlives the deletion is in none of the account's cases. -/
theorem MayDelete.document_of_stay {credentials : Option Token} {password : String}
    {mfa_code : Option String} {acknowledge : Bool} {db db' : Database} {auth : Authenticated}
    (h : MayDelete srv env credentials password mfa_code acknowledge db auth db') {d : Document}
    (hd : d ∈ without_account db' auth.account.id .document) :
    d ∈ db .document ∧ document_of db auth.account.id d = false := by
  obtain ⟨hin, hof⟩ := not_document_of_without_account hd
  have hdocs : db' .document = db .document := h.reauthenticated.other (by decide) (by decide)
  have hcases : db' .case_ = db .case_ := h.reauthenticated.other (by decide) (by decide)
  refine ⟨hdocs ▸ hin, ?_⟩
  unfold document_of at hof ⊢
  rwa [hcases] at hof

end CounselReady
