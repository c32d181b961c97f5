import CounselReady.Specs.Deletion
import CounselReady.Framework.Cascade

/-! # What Becomes of an Enrolment

    The second factor of an account is a row of `user_mfa` and the rows of
    `recovery_code`, and no key ties the two together. Every route that writes
    to one of the tables is shown to leave the account in one of the states that
    `FactorStep` allows, and every other route to leave both tables alone.
-/

namespace CounselReady

open Relational Framework Handler Prog

variable {Token : Type} {srv : Server Token} {env : Env} {s : Session} {account : UserAccount}

/-! ### Two tables without children -/

theorem enrolment_leaf {t : Table} (ht : t = .user_mfa ∨ t = .recovery_code) :
    ∀ t', ∀ k ∈ schema.keys t', k.target ≠ t := by
  have hleaf : ∀ {t}, permits_delete (.mfa_disable "" "" : Route Payload) t → t ≠ .user_account →
      ∀ t', ∀ k ∈ schema.keys t', k.target ≠ t :=
    fun hp hne => (leaf_of_permitted hp).resolve_left hne
  rcases ht with rfl | rfl
  · exact hleaf rfl (by decide)
  · exact hleaf rfl (by decide)

/-- The rows of a table after one of its rows, or one of the other table, is deleted. -/
theorem deleted_alone {db : Database} {t t' : Table} {id : Uuid}
    (ht : ∀ t', ∀ k ∈ schema.keys t', k.target ≠ t) (ht' : schema.Rigid t') :
    schema.effect (.remove (schema.doomed db t id)) db t' =
      (db t').filter (fun r => decide ((t', schema.pk t' r) ≠ (t, id))) :=
  Schema.effect_remove_leaf schema_stratified schema_regular.ordered ht ht'

/-- `for row in ...: session.delete(row)`. -/
theorem wps_delete_all {t : Table} {ids : List Uuid} {Q : Except Exc Unit → Session → Prop}
    (hleaf : ∀ t', ∀ k ∈ schema.keys t', k.target ≠ t) (ht : schema.Rigid t)
    (herr : ∀ e s', Q (.error e) s')
    (hok : ∀ s' : Session, s'.db t = (s.db t).filter (fun r => decide (schema.pk t r ∉ ids)) →
      (∀ t', t' ≠ t → schema.Rigid t' → s'.db t' = s.db t') → Q (.ok ()) s') :
    wps (delete_all t ids) Q s := by
  induction ids generalizing s with
  | nil =>
    refine (wp_pure _).mpr (hok s ?_ fun _ _ _ => rfl)
    simp
  | cons id ids ih =>
    refine wps_execute_bind (fun _ => herr _ _) fun _ => ih fun s' hrows hrest => hok s' ?_ ?_
    · rw [hrows]
      show ((schema.effect (.remove (schema.doomed s.db t id)) s.db) t).filter _ = _
      rw [deleted_alone hleaf ht, List.filter_filter]
      refine List.filter_congr fun r _ => ?_
      simp [List.mem_cons, not_or, Bool.and_comm]
    · intro t' hne hrigid
      rw [hrest t' hne hrigid]
      show (schema.effect (.remove (schema.doomed s.db t id)) s.db) t' = _
      rw [deleted_alone hleaf hrigid]
      refine List.filter_eq_self.mpr fun r _ => ?_
      simp [hne]

/-! ### The second factor of an account -/

/-- The rows that belong to one account. -/
structure Factor where
  enrolment : List UserMfa
  codes : List RecoveryCode

def enrolments_of (rows : List UserMfa) (user_id : Uuid) : List UserMfa :=
  rows.filter (fun m => m.user_id == user_id)

def codes_of (rows : List RecoveryCode) (user_id : Uuid) : List RecoveryCode :=
  rows.filter (fun c => c.user_id == user_id)

def factor (db : Database) (user_id : Uuid) : Factor :=
  ⟨enrolments_of (db .user_mfa) user_id, codes_of (db .recovery_code) user_id⟩

/-- What a step announces to one account. -/
inductive FactorEvent where
  | silent
  | set_up (encrypted_secret : String) (digests : List String)
  | accepted (digest : String)
  deriving DecidableEq

/-- What one step may do to the second factor of one account. -/
inductive FactorStep : Factor → FactorEvent → Factor → Prop where
  | stay (f : Factor) : FactorStep f .silent f
  /-- setting up, or setting up again what is not confirmed -/
  | set_up (f : Factor) (m : UserMfa) (codes : List RecoveryCode)
      (unconfirmed : ∀ m ∈ f.enrolment, m.is_active = false) (pending : m.confirmed_at = none)
      (ten : codes.length = recovery_code_count) (unused : ∀ c ∈ codes, c.used_at = none) :
      FactorStep f (.set_up m.encrypted_secret (codes.map RecoveryCode.digest)) ⟨[m], codes⟩
  | confirm (m : UserMfa) (codes : List RecoveryCode) (now : Nat) (step : Int)
      (unconfirmed : m.is_active = false) :
      FactorStep ⟨[m], codes⟩ .silent
        ⟨[{ m with confirmed_at := some now, last_used_counter := some step }], codes⟩
  | count (m : UserMfa) (codes : List RecoveryCode) (step : Int) (active : m.is_active = true) :
      FactorStep ⟨[m], codes⟩ .silent ⟨[{ m with last_used_counter := some step }], codes⟩
  | use (m : UserMfa) (before after : List RecoveryCode) (c : RecoveryCode) (now : Nat)
      (active : m.is_active = true) (unused : c.used_at = none) :
      FactorStep ⟨[m], before ++ c :: after⟩ (.accepted c.digest)
        ⟨[m], before ++ { c with used_at := some now } :: after⟩
  | drop (f : Factor) : FactorStep f .silent ⟨[], []⟩
  /-- disabling, or deleting the account, with a recovery code -/
  | drop_by_code (m : UserMfa) (codes : List RecoveryCode) (c : RecoveryCode)
      (active : m.is_active = true) (mem : c ∈ codes) (unused : c.used_at = none) :
      FactorStep ⟨[m], codes⟩ (.accepted c.digest) ⟨[], []⟩

/-! ### What a statement does to the rows of an account -/

section slices
variable {db : Database} {user_id other : Uuid}

theorem mem_enrolments {rows : List UserMfa} {m : UserMfa} :
    m ∈ enrolments_of rows user_id ↔ m ∈ rows ∧ m.user_id = user_id := by
  simp [enrolments_of]

theorem mem_codes {rows : List RecoveryCode} {c : RecoveryCode} :
    c ∈ codes_of rows user_id ↔ c ∈ rows ∧ c.user_id = user_id := by
  simp [codes_of]

theorem enrolments_update {id : Uuid} {patch : MfaPatch} :
    enrolments_of (schema.effect (.update .user_mfa id patch) db .user_mfa) user_id =
      (enrolments_of (db .user_mfa) user_id).map (schema.patched .user_mfa id patch) := by
  have howner : ∀ m : UserMfa,
      UserMfa.user_id (schema.patched .user_mfa id patch m) = m.user_id := by
    intro m
    unfold Schema.patched
    split
    · cases patch <;> rfl
    · rfl
  rw [Schema.effect_update_self]
  unfold enrolments_of
  rw [List.filter_map]
  refine congrArg (List.map _) (List.filter_congr fun m _ => ?_)
  simp [howner]

theorem codes_update {id : Uuid} {patch : RecoveryPatch} :
    codes_of (schema.effect (.update .recovery_code id patch) db .recovery_code) user_id =
      (codes_of (db .recovery_code) user_id).map (schema.patched .recovery_code id patch) := by
  have howner : ∀ c : RecoveryCode,
      RecoveryCode.user_id (schema.patched .recovery_code id patch c) = c.user_id := by
    intro c
    unfold Schema.patched
    split
    · cases patch
      rfl
    · rfl
  rw [Schema.effect_update_self]
  unfold codes_of
  rw [List.filter_map]
  refine congrArg (List.map _) (List.filter_congr fun c _ => ?_)
  simp [howner]

/-- An UPDATE of one row leaves the rows of every other owner as they were. -/
theorem patched_others {t : Table} {rows : List (Row t)} {id : Uuid} {patch : Patch t}
    (h : ∀ r ∈ rows, schema.pk t r ≠ id) : rows.map (schema.patched t id patch) = rows := by
  have hsame : ∀ r ∈ rows, schema.patched t id patch r = r :=
    fun r hr => Schema.patched_of_ne (h r hr)
  rw [List.map_congr_left hsame, List.map_id']

theorem patched_enrolment (m : UserMfa) (patch : MfaPatch) :
    schema.patched .user_mfa m.id patch m = patch.apply m :=
  Schema.patched_of_eq rfl

/-- The row that is written to stands where it stood. -/
theorem patched_split {t : Table} {rows : List (Row t)} {r : Row t} {patch : Patch t}
    (hdistinct : rows.Pairwise (fun a b => schema.pk t a ≠ schema.pk t b)) (hr : r ∈ rows) :
    ∃ before after, rows = before ++ r :: after ∧
      rows.map (schema.patched t (schema.pk t r) patch) =
        before ++ schema.apply t patch r :: after := by
  obtain ⟨before, after, rfl⟩ := List.append_of_mem hr
  refine ⟨before, after, rfl, ?_⟩
  rw [List.pairwise_append] at hdistinct
  obtain ⟨_, hafter, hcross⟩ := hdistinct
  rw [List.map_append, List.map_cons, Schema.patched_of_eq rfl,
    patched_others fun b hb => hcross b hb r List.mem_cons_self,
    patched_others fun a ha => ((List.pairwise_cons.mp hafter).1 a ha).symm]

/-- A row of an account is not one of any other. -/
theorem enrolments_apart (hc : schema.Consistent db) {m : UserMfa} (hm : m ∈ db .user_mfa)
    (hother : m.user_id ≠ other) :
    ∀ r ∈ enrolments_of (db .user_mfa) other, schema.pk .user_mfa r ≠ m.id := by
  intro r hr hid
  obtain ⟨hrows, howner⟩ := mem_enrolments.mp hr
  obtain rfl : r = m := hc.eq_of_pk hrows hm hid
  exact hother howner

theorem codes_apart (hc : schema.Consistent db) {c : RecoveryCode} (hmem : c ∈ db .recovery_code)
    (hother : c.user_id ≠ other) :
    ∀ r ∈ codes_of (db .recovery_code) other, schema.pk .recovery_code r ≠ c.id := by
  intro r hr hid
  obtain ⟨hrows, howner⟩ := mem_codes.mp hr
  obtain rfl : r = c := hc.eq_of_pk hrows hmem hid
  exact hother howner

theorem factor_without_account (hc : schema.Consistent db) :
    factor (without_account db user_id) other =
      if other = user_id then ⟨[], []⟩ else factor db other := by
  have henrolments : without_account db user_id .user_mfa =
      (db .user_mfa).filter (fun m : UserMfa => decide (m.user_id ≠ user_id)) :=
    owned_without_account hc rfl (by decide)
  have hcodes : without_account db user_id .recovery_code =
      (db .recovery_code).filter (fun c : RecoveryCode => decide (c.user_id ≠ user_id)) :=
    owned_without_account hc rfl (by decide)
  unfold factor enrolments_of codes_of
  rw [henrolments, hcodes, List.filter_filter, List.filter_filter]
  by_cases hself : other = user_id
  · subst hself
    simp
  · simp only [if_neg hself, Factor.mk.injEq]
    constructor
    · refine List.filter_congr fun m _ => ?_
      by_cases howner : UserMfa.user_id m = other <;> simp [howner, hself]
    · refine List.filter_congr fun c _ => ?_
      by_cases howner : RecoveryCode.user_id c = other <;> simp [howner, hself]

end slices

/-- The step is one on the second factor of one account. -/
structure FactorMoved (user_id : Uuid) (event : FactorEvent) (db db' : Database) : Prop where
  own : FactorStep (factor db user_id) event (factor db' user_id)
  others : ∀ other, other ≠ user_id → factor db' other = factor db other

/-! ### A code -/

/-- How the account is told that a code was accepted. -/
def code_event (srv : Server Token) (env : Env) (db : Database) (user_id : Uuid) (code : String) :
    FactorEvent :=
  if by_recovery srv env db user_id code then .accepted (hash_recovery_code srv code) else .silent

theorem moved_of_spent {code : String} {db db' : Database} (hc : schema.Consistent db)
    (h : CodeSpent srv env account code db (by_recovery srv env db account.id code) db') :
    FactorMoved account.id (code_event srv env db account.id code) db db' := by
  unfold code_event
  generalize by_recovery srv env db account.id code = recovery at h
  cases h with
  | totp m step enrolled active right later =>
    have hone : enrolments_of (db .user_mfa) account.id = [m] := enrolled
    have hmem : m ∈ enrolments_of (db .user_mfa) account.id := by
      rw [hone]
      exact List.mem_singleton_self m
    have hcodes : schema.effect (.update .user_mfa m.id (.consume step)) db .recovery_code =
        db .recovery_code := Schema.effect_update_ne _ _ _ (by decide)
    constructor
    · have hown : factor (schema.effect (.update .user_mfa m.id (.consume step)) db) account.id =
          ⟨[{ m with last_used_counter := some step }], codes_of (db .recovery_code) account.id⟩ := by
        unfold factor
        rw [enrolments_update, hcodes, hone, List.map_singleton, patched_enrolment]
        rfl
      rw [hown]
      unfold factor
      rw [hone]
      exact .count m _ step active
    · intro other hother
      unfold factor
      rw [enrolments_update, hcodes, patched_others]
      refine enrolments_apart hc (mem_enrolments.mp hmem).1 ?_
      rw [(mem_enrolments.mp hmem).2]
      exact hother.symm
  | recovery m c enrolled active mem owner right unused =>
    have hone : enrolments_of (db .user_mfa) account.id = [m] := enrolled
    have hrows : schema.effect (.update .recovery_code c.id (.use env.now)) db .user_mfa =
        db .user_mfa := Schema.effect_update_ne _ _ _ (by decide)
    have hown : c ∈ codes_of (db .recovery_code) account.id := mem_codes.mpr ⟨mem, owner⟩
    have hdistinct : (codes_of (db .recovery_code) account.id).Pairwise
        (fun a b => schema.pk .recovery_code a ≠ schema.pk .recovery_code b) :=
      (hc.distinct .recovery_code).filter _
    -- ids differ, so this one row is rewritten among the codes of the account
    obtain ⟨before, after, hbefore, hafter⟩ :=
      @patched_split .recovery_code _ c (.use env.now) hdistinct hown
    constructor
    · unfold factor
      have hafter : (codes_of (db .recovery_code) account.id).map
          (schema.patched .recovery_code c.id (.use env.now)) =
            before ++ { c with used_at := some env.now } :: after := hafter
      rw [codes_update, hrows, hone, hafter, hbefore, if_pos rfl, ← right]
      exact .use m before after c env.now active unused
    · intro other hother
      unfold factor
      rw [codes_update, hrows, patched_others]
      refine codes_apart hc mem ?_
      rw [owner]
      exact hother.symm

/-! ### Setting up -/

def minted_digests (srv : Server Token) (env : Env) : List String :=
  (List.range recovery_code_count).map (fun i =>
    hash_recovery_code srv (generate_recovery_code srv (env.recovery_raw i)))

/-- The secret as it is stored, under the key of the server. -/
def sealed_secret (srv : Server Token) (env : Env) : String :=
  (srv.mfa_encryption_key.map (fun key =>
    srv.fernet_encrypt key env.fernet_nonce env.totp_secret)).getD ""

theorem wps_begin_enrolment_bind {β : Type} {email : String} {f : Enrolment → Handler β}
    {Q : Except Exc β → Session → Prop} (herr : ∀ e, Q (.error e) s)
    (hok : ∀ enrolment : Enrolment, enrolment.encrypted_secret = sealed_secret srv env →
      enrolment.recovery_digests = minted_digests srv env → wps (f enrolment) Q s) :
    wps (begin_enrolment srv env email >>= f) Q s := by
  refine wps_bind (wps_bind (wps_bind ?_))
  unfold cipher
  cases hkey : srv.mfa_encryption_key with
  | none => exact (wp_raise _).mpr (herr _)
  | some key =>
    refine (wp_ite _ _).mpr ⟨fun _ => (wp_raise _).mpr (herr _), fun _ => ?_⟩
    refine (wp_ite _ _).mpr ⟨fun _ => (wp_pure _).mpr ?_, fun _ => (wp_raise _).mpr (herr _)⟩
    refine (wp_pure _).mpr ((wp_pure _).mpr (hok _ ?_ ?_))
    · simp [sealed_secret, hkey]
    · simp [minted_digests, List.map_map, Function.comp_def]

/-- The rows of a new set of codes. -/
def recovery_rows (env : Env) (user_id : Uuid) (digests : List String) : List RecoveryCode :=
  digests.mapIdx (fun i digest => ⟨env.uuid (i + 1), user_id, digest, none⟩)

theorem recovery_rows_digests {user_id : Uuid} {digests : List String} :
    (recovery_rows env user_id digests).map RecoveryCode.digest = digests := by
  refine List.ext_getElem (by simp [recovery_rows]) fun i _ _ => ?_
  simp [recovery_rows]

theorem mem_recovery_rows {user_id : Uuid} {digests : List String} {c : RecoveryCode}
    (hc : c ∈ recovery_rows env user_id digests) : c.user_id = user_id ∧ c.used_at = none := by
  obtain ⟨i, _, rfl⟩ := List.mem_mapIdx.mp hc
  exact ⟨rfl, rfl⟩

/-- The codes that are left once those of an account have been deleted one by one. -/
theorem codes_deleted {db : Database} (hc : schema.Consistent db) {user_id other : Uuid} :
    codes_of ((db .recovery_code).filter (fun c => decide (schema.pk .recovery_code c ∉
      (codes_of (db .recovery_code) user_id).map RecoveryCode.id))) other =
        if other = user_id then [] else codes_of (db .recovery_code) other := by
  have hids : ∀ c ∈ db .recovery_code, (schema.pk .recovery_code c ∈
      (codes_of (db .recovery_code) user_id).map RecoveryCode.id ↔
        RecoveryCode.user_id c = user_id) := by
    intro c hmem
    constructor
    · intro hid
      obtain ⟨c', hc', hsame⟩ := List.mem_map.mp hid
      obtain ⟨hrow, howner⟩ := mem_codes.mp hc'
      obtain rfl : c' = c := hc.eq_of_pk hrow hmem hsame
      exact howner
    · intro howner
      exact List.mem_map.mpr ⟨c, mem_codes.mpr ⟨hmem, howner⟩, rfl⟩
  unfold codes_of at hids ⊢
  rw [List.filter_filter]
  by_cases hself : other = user_id
  · subst hself
    rw [if_pos rfl]
    refine List.filter_eq_nil_iff.mpr fun c hmem => ?_
    simp [hids c hmem]
  · rw [if_neg hself]
    refine List.filter_congr fun c hmem => ?_
    by_cases howner : RecoveryCode.user_id c = other
    · simp [hids c hmem, howner, hself]
    · simp [howner]

/-- Old codes out, and new ones in. -/
theorem wps_replace_codes {α : Type} {user_id : Uuid} {digests : List String} {a : α}
    {Q : Except Exc α → Session → Prop} (hc : schema.Consistent s.db)
    (herr : ∀ e s', Q (.error e) s')
    (hok : ∀ s' : Session, s'.db .user_mfa = s.db .user_mfa →
      (∀ other, codes_of (s'.db .recovery_code) other =
        if other = user_id then recovery_rows env user_id digests
        else codes_of (s.db .recovery_code) other) → Q (.ok a) s') :
    wps (do
      delete_recovery_codes user_id
      insert_all .recovery_code (recovery_rows env user_id digests)
      pure a) Q s := by
  refine wps_bind (wps_select_bind (wps_delete_all (enrolment_leaf (.inr rfl)) (rigid (by decide))
    herr fun s₁ hrows hrest => ?_))
  refine wps_bind (wps_insert_all (fun _ _ _ _ => herr _ _) (fun _ _ _ _ _ _ _ _ => herr _ _)
    fun faults _ => (wp_pure _).mpr ?_)
  have hnew : inserted_all .recovery_code (recovery_rows env user_id digests) s₁.db .recovery_code =
      s₁.db .recovery_code ++ recovery_rows env user_id digests := inserted_all_self _ _ _
  refine hok _ ?_ fun other => ?_
  · show inserted_all .recovery_code (recovery_rows env user_id digests) s₁.db .user_mfa = _
    rw [inserted_all_ne _ _ (by decide), hrest _ (by decide) (rigid (by decide))]
  · have hleft : codes_of (s₁.db .recovery_code) other =
        if other = user_id then [] else codes_of (s.db .recovery_code) other := by
      rw [hrows]
      exact codes_deleted hc
    have hadded : codes_of (recovery_rows env user_id digests) other =
        if other = user_id then recovery_rows env user_id digests else [] := by
      unfold codes_of
      by_cases hself : other = user_id
      · rw [if_pos hself]
        refine List.filter_eq_self.mpr fun c hmem => ?_
        simp [(mem_recovery_rows hmem).1, hself]
      · rw [if_neg hself]
        refine List.filter_eq_nil_iff.mpr fun c hmem => ?_
        simp [(mem_recovery_rows hmem).1, Ne.symm hself]
    show codes_of (inserted_all .recovery_code (recovery_rows env user_id digests) s₁.db
      .recovery_code) other = _
    rw [hnew]
    have happend : codes_of (s₁.db .recovery_code ++ recovery_rows env user_id digests) other =
        codes_of (s₁.db .recovery_code) other ++
          codes_of (recovery_rows env user_id digests) other := List.filter_append ..
    rw [happend, hleft, hadded]
    split <;> simp

/-- What a setup may do once it has read the enrolment: write to that one if there is one,
    add one if there is none. It does not read again. -/
def restarts (existing : Option UserMfa) : Op Row Patch Uuid Ext → Prop
  | .select .user_mfa _ => False
  | .write (.insert .user_mfa m) => UserMfa.confirmed_at m = none
  | .write (.update .user_mfa id (.restart _ _)) => ∃ m, existing = some m ∧ id = m.id
  | .write (.update .user_mfa _ _) => False
  | _ => True

theorem confined_restarts {existing : Option UserMfa} :
    Confined (restarts existing) (do
      let enrolment ← begin_enrolment srv env account.email
      store_secret env account existing enrolment.encrypted_secret
      delete_recovery_codes account.id
      insert_all .recovery_code (recovery_rows env account.id enrolment.recovery_digests)
      pure (⟨enrolment.provisioning_uri, enrolment.recovery_codes⟩ : PendingEnrolment)) := by
  have hdelete : ∀ ids, Confined (restarts existing) (delete_all .recovery_code ids) := by
    intro ids
    induction ids with
    | nil => exact every_pure _
    | cons id ids ih => exact confined_bind (confined_delete trivial) fun _ => ih
  refine confined_bind confined_begin_enrolment fun enrolment => ?_
  refine confined_bind ?_ fun _ => ?_
  · cases existing with
    | none => exact confined_insert rfl
    | some record => exact confined_update ⟨record, rfl, rfl⟩
  refine confined_bind (confined_bind (every_select trivial) fun codes => hdelete _) fun _ => ?_
  exact confined_bind (confined_insert_all fun _ _ => trivial) fun _ => every_pure _

/-- **Setting up** replaces what is there, unless it is confirmed. -/
theorem wps_start_enrolment_moved {Q : Except Exc PendingEnrolment → Session → Prop}
    (hc : schema.Consistent s.db) (herr : ∀ e s', Q (.error e) s')
    (hok : ∀ pending s', FactorMoved account.id
      (.set_up (sealed_secret srv env) (minted_digests srv env)) s.db s'.db → Q (.ok pending) s') :
    wps (start_enrolment srv env account) Q s := by
  -- once the secret is stored as `m`, the codes are replaced
  have htail : ∀ (st : Session) (m : UserMfa) (pending : PendingEnrolment),
      schema.Consistent st.db → m.encrypted_secret = sealed_secret srv env →
      m.confirmed_at = none →
      (∀ m ∈ enrolments_of (s.db .user_mfa) account.id, m.is_active = false) →
      (∀ other, enrolments_of (st.db .user_mfa) other =
        if other = account.id then [m] else enrolments_of (s.db .user_mfa) other) →
      st.db .recovery_code = s.db .recovery_code →
      wps (do
        delete_recovery_codes account.id
        insert_all .recovery_code (recovery_rows env account.id (minted_digests srv env))
        pure pending) Q st := by
    intro st m pending hst hsecret hpending hunconfirmed hrows hcodes
    refine wps_replace_codes hst herr fun s' hsame hnew => hok pending s' ⟨?_, fun other hne => ?_⟩
    · have hown : factor s'.db account.id =
          ⟨[m], recovery_rows env account.id (minted_digests srv env)⟩ := by
        unfold factor
        rw [hsame, hrows, hnew, if_pos rfl, if_pos rfl]
      rw [hown, ← hsecret]
      have hstep := FactorStep.set_up (factor s.db account.id) m
        (recovery_rows env account.id (minted_digests srv env)) hunconfirmed hpending
        (by simp [recovery_rows, minted_digests]) (fun c hmem => (mem_recovery_rows hmem).2)
      rwa [recovery_rows_digests] at hstep
    · unfold factor
      rw [hsame, hrows, hnew, if_neg hne, if_neg hne, hcodes]
  refine wps_select_one_bind (herr _ _) (fun hnone => ?_) fun m hm hid hone => ?_
  · refine wps_require_bind (fun _ => herr _ _) fun _ => ?_
    refine wps_begin_enrolment_bind (fun _ => herr _ _) fun enrolment hsecret hdigests => ?_
    refine wps_execute_bind (fun _ => herr _ _) fun hchk => ?_
    have hnil : enrolments_of (s.db .user_mfa) account.id = [] :=
      List.filter_eq_nil_iff.mpr fun m hm => by simpa using hnone m hm
    rw [hdigests]
    refine htail _ ⟨env.uuid 0, account.id, enrolment.encrypted_secret, none, none⟩ _
      (Schema.consistent_admitted schema_regular hc hchk) hsecret rfl ?_ (fun other => ?_) ?_
    · rw [hnil]
      intro m hm
      cases hm
    · have hinsert : schema.effect (.insert .user_mfa (⟨env.uuid 0, account.id,
          enrolment.encrypted_secret, none, none⟩ : UserMfa)) s.db .user_mfa =
            s.db .user_mfa ++ [⟨env.uuid 0, account.id, enrolment.encrypted_secret, none, none⟩] :=
        Schema.effect_insert_self _ _ _
      show enrolments_of (schema.effect (.insert .user_mfa _) s.db .user_mfa) other = _
      rw [hinsert]
      unfold enrolments_of at hnil ⊢
      rw [List.filter_append]
      by_cases hself : other = account.id
      · subst hself
        simp [hnil]
      · simp [hself, Ne.symm hself]
    · show schema.effect (.insert .user_mfa (⟨env.uuid 0, account.id, enrolment.encrypted_secret,
        none, none⟩ : UserMfa)) s.db .recovery_code = _
      exact Schema.effect_insert_ne _ _ (by decide)
  · have hone : enrolments_of (s.db .user_mfa) account.id = [m] := hone
    have howner : UserMfa.user_id m = account.id := by simpa using hid
    refine wps_require_bind (fun _ => herr _ _) fun hinactive => ?_
    have hinactive : m.is_active = false := by simpa using hinactive
    refine wps_begin_enrolment_bind (fun _ => herr _ _) fun enrolment hsecret hdigests => ?_
    refine wps_execute_bind (fun _ => herr _ _) fun hchk => ?_
    rw [hdigests]
    refine htail _
      ((MfaPatch.restart enrolment.encrypted_secret m.last_used_counter.isSome).apply m) _
      (Schema.consistent_admitted schema_regular hc hchk) hsecret ?_ ?_ (fun other => ?_) ?_
    · show m.confirmed_at = none
      simpa [UserMfa.is_active] using hinactive
    · rw [hone]
      intro m' hm'
      rw [List.mem_singleton.mp hm']
      exact hinactive
    · show enrolments_of (schema.effect (.update .user_mfa m.id (.restart _ _)) s.db .user_mfa) other = _
      rw [enrolments_update]
      by_cases hself : other = account.id
      · subst hself
        rw [hone, if_pos rfl, List.map_singleton, patched_enrolment]
      · rw [if_neg hself, patched_others]
        refine enrolments_apart hc hm ?_
        rw [howner]
        exact Ne.symm hself
    · show schema.effect (.update .user_mfa m.id (.restart enrolment.encrypted_secret
        m.last_used_counter.isSome)) s.db .recovery_code = _
      exact Schema.effect_update_ne _ _ _ (by decide)

/-! ### Confirming and disabling -/

theorem wps_confirm_enrolment_moved {code : String} {Q : Except Exc Unit → Session → Prop}
    (hc : schema.Consistent s.db) (herr : ∀ e s', Q (.error e) s')
    (hok : ∀ s', FactorMoved account.id .silent s.db s'.db → Q (.ok ()) s') :
    wps (confirm_enrolment srv env account code) Q s := by
  refine wps_select_one_bind (herr _ _) (fun _ => ?_) fun m hm hid hone => ?_
  · exact wps_some_or_bind (fun _ => herr _ _) (fun _ h => by cases h)
  have hone : enrolments_of (s.db .user_mfa) account.id = [m] := hone
  have howner : UserMfa.user_id m = account.id := by simpa using hid
  refine wps_some_or_bind (fun _ => herr _ _) fun record hrecord => ?_
  cases hrecord
  refine wps_require_bind (fun _ => herr _ _) fun hinactive => ?_
  have hinactive : m.is_active = false := by simpa using hinactive
  refine wps_decrypt_secret_bind (fun _ => herr _ _) fun key secret _ _ => ?_
  refine wps_bind (wps_matching_counter (fun _ => herr _ _) (fun _ => ?_) fun step _ _ _ _ => ?_)
  · exact wps_some_or_bind (fun _ => herr _ _) (fun _ h => by cases h)
  refine wps_some_or_bind (fun _ => herr _ _) fun step' hstep => ?_
  cases hstep
  refine wps_execute (fun _ => herr _ _) fun _ => hok _ ?_
  have hcodes : schema.effect (.update .user_mfa m.id (.confirm env.now step)) s.db .recovery_code =
      s.db .recovery_code := Schema.effect_update_ne _ _ _ (by decide)
  constructor
  · have hown : factor (schema.effect (.update .user_mfa m.id (.confirm env.now step)) s.db)
        account.id = ⟨[{ m with confirmed_at := some env.now, last_used_counter := some step }],
          codes_of (s.db .recovery_code) account.id⟩ := by
      unfold factor
      rw [enrolments_update, hcodes, hone, List.map_singleton, patched_enrolment]
      rfl
    show FactorStep _ _ (factor (schema.effect (.update .user_mfa m.id (.confirm env.now step)) s.db)
      account.id)
    rw [hown]
    unfold factor
    rw [hone]
    exact .confirm m _ env.now step hinactive
  · intro other hother
    show factor (schema.effect (.update .user_mfa m.id (.confirm env.now step)) s.db) other = _
    unfold factor
    rw [enrolments_update, hcodes, patched_others]
    refine enrolments_apart hc hm ?_
    rw [howner]
    exact hother.symm

/-- **Disabling** leaves nothing. -/
theorem wps_disable_mfa_moved {Q : Except Exc Unit → Session → Prop}
    (hc : schema.Consistent s.db) (herr : ∀ e s', Q (.error e) s')
    (hok : ∀ s', factor s'.db account.id = ⟨[], []⟩ →
      (∀ other, other ≠ account.id → factor s'.db other = factor s.db other) → Q (.ok ()) s') :
    wps (disable_mfa account) Q s := by
  refine wps_select_one_bind (herr _ _) (fun _ => ?_) fun m hm hid hone => ?_
  · exact wps_some_or_bind (fun _ => herr _ _) (fun _ h => by cases h)
  have hone : enrolments_of (s.db .user_mfa) account.id = [m] := hone
  have howner : UserMfa.user_id m = account.id := by simpa using hid
  refine wps_some_or_bind (fun _ => herr _ _) fun record hrecord => ?_
  cases hrecord
  refine wps_require_bind (fun _ => herr _ _) fun _ => ?_
  -- the enrolment goes first; nothing points at it, so it goes alone
  refine wps_execute_bind (fun _ => herr _ _) fun hchk => ?_
  have hst : schema.Consistent (schema.effect (schema.resolve s.db (.delete .user_mfa m.id)) s.db) :=
    Schema.consistent_admitted schema_regular hc hchk
  have hcodes : schema.effect (schema.resolve s.db (.delete .user_mfa m.id)) s.db .recovery_code =
      s.db .recovery_code := by
    rw [Schema.resolve, deleted_alone (enrolment_leaf (.inl rfl)) (rigid (by decide))]
    exact List.filter_eq_self.mpr fun r _ => by simp
  have hrows : schema.effect (schema.resolve s.db (.delete .user_mfa m.id)) s.db .user_mfa =
      (s.db .user_mfa).filter (fun r : UserMfa => decide (r.id ≠ m.id)) := by
    rw [Schema.resolve, deleted_alone (enrolment_leaf (.inl rfl)) (rigid (by decide))]
    refine List.filter_congr fun r _ => ?_
    simp [schema, row_pk]
  -- it was the account's only one, and is no other account's
  have hleft : ∀ other, enrolments_of ((s.db .user_mfa).filter
      (fun r : UserMfa => decide (r.id ≠ m.id))) other =
        if other = account.id then [] else enrolments_of (s.db .user_mfa) other := by
    intro other
    have hcomm : enrolments_of ((s.db .user_mfa).filter (fun r : UserMfa => decide (r.id ≠ m.id)))
        other = (enrolments_of (s.db .user_mfa) other).filter
          (fun r : UserMfa => decide (r.id ≠ m.id)) := by
      unfold enrolments_of
      rw [List.filter_filter, List.filter_filter]
      exact List.filter_congr fun r _ => Bool.and_comm _ _
    rw [hcomm]
    by_cases hself : other = account.id
    · subst hself
      rw [hone]
      simp
    · rw [if_neg hself]
      refine List.filter_eq_self.mpr fun r hr => decide_eq_true ?_
      refine enrolments_apart hc hm ?_ r hr
      rw [howner]
      exact Ne.symm hself
  -- then the codes, one by one
  refine wps_select_bind (wps_delete_all (enrolment_leaf (.inr rfl)) (rigid (by decide)) herr
    fun s' hnew hkept => ?_)
  have hfactor : ∀ other, factor s'.db other =
      if other = account.id then ⟨[], []⟩ else factor s.db other := by
    intro other
    have hcodes' : codes_of (s'.db .recovery_code) other =
        if other = account.id then [] else codes_of (s.db .recovery_code) other := by
      rw [hnew, ← hcodes]
      exact codes_deleted hst
    have hrows' : s'.db .user_mfa = (s.db .user_mfa).filter
        (fun r : UserMfa => decide (r.id ≠ m.id)) :=
      (hkept _ (by decide) (rigid (by decide))).trans hrows
    unfold factor
    rw [hrows', hleft, hcodes']
    by_cases hself : other = account.id
    · simp only [if_pos hself]
    · simp only [if_neg hself]
  refine hok s' ?_ fun other hother => ?_
  · rw [hfactor, if_pos rfl]
  · rw [hfactor, if_neg hother]

/-! ### Steps of a run -/

/-- The account the bearer token names. -/
def bearer (srv : Server Token) (env : Env) (credentials : Option Token) : Option Uuid :=
  (credentials.bind (fun token => decode_access_token srv token env.now)).map
    AccessTokenClaims.user_id

theorem SignedIn.bearer {credentials : Option Token} {db : Database} {auth : Authenticated}
    (h : SignedIn srv env credentials db auth) :
    bearer srv env credentials = some auth.account.id := by
  obtain ⟨token, rfl, claims, hdecode, howner, _⟩ := h.token
  simp [CounselReady.bearer, hdecode, howner]

/-- The account a request is about, and what it announces there when it succeeds. -/
def announced (srv : Server Token) (env : Env) (req : Request Token) (db : Database) :
    Option Uuid × (Uuid → FactorEvent) :=
  match req.route with
  | .mfa_setup => (bearer srv env req.credentials,
      fun _ => .set_up (sealed_secret srv env) (minted_digests srv env))
  | .mfa_confirm _ => (bearer srv env req.credentials, fun _ => .silent)
  | .mfa_verify challenge_token code => (decode_mfa_challenge srv challenge_token env.now,
      fun user_id => code_event srv env db user_id code)
  | .mfa_disable _ code => (bearer srv env req.credentials,
      fun user_id => code_event srv env db user_id code)
  | .delete_own_account _ mfa_code _ => (bearer srv env req.credentials,
      fun user_id => (mfa_code.map (code_event srv env db user_id)).getD .silent)
  | _ => (none, fun _ => .silent)

/-- What a step announces to an account, in the state it meets. -/
def factor_event (srv : Server Token) (user_id : Uuid) : Step Token × Committed → FactorEvent
  | (.request env req, w) =>
      if (serve srv env req w).1.succeeded ∧ (announced srv env req w.db).1 = some user_id then
        (announced srv env req w.db).2 user_id
      else .silent
  | (.ocr _ _ _, _) => .silent

/-- A request fails and changes nothing, or moves the account it is about. -/
def FactorServed (srv : Server Token) (env : Env) (req : Request Token) (w : Committed)
    (resp : Response Token) (w' : Committed) : Prop :=
  (resp.succeeded = false ∧ w'.db = w.db) ∨
    ∃ user_id, resp.succeeded = true ∧ (announced srv env req w.db).1 = some user_id ∧
      FactorMoved user_id ((announced srv env req w.db).2 user_id) w.db w'.db

theorem FactorServed.step {req : Request Token} {w : Committed} (user_id : Uuid)
    (h : FactorServed srv env req w (serve srv env req w).1 (serve srv env req w).2) :
    FactorStep (factor w.db user_id) (factor_event srv user_id (.request env req, w))
      (factor (serve srv env req w).2.db user_id) := by
  simp only [factor_event]
  rcases h with ⟨hfailed, hdb⟩ | ⟨mover, hdone, habout, hmoved⟩
  · rw [hdb, hfailed]
    simp only [Bool.false_eq_true, false_and, if_false]
    exact .stay _
  · by_cases hself : mover = user_id
    · subst hself
      rw [if_pos ⟨hdone, habout⟩]
      exact hmoved.own
    · have hnot : ¬ ((serve srv env req w).1.succeeded = true ∧
          (announced srv env req w.db).1 = some user_id) := by
        rintro ⟨_, hsame⟩
        rw [habout] at hsame
        exact hself (Option.some.inj hsame)
      rw [if_neg hnot, hmoved.others user_id (Ne.symm hself)]
      exact .stay _

section served
variable {w : Committed} {req : Request Token}

/-- What is left of a request that raised, or whose COMMIT failed. -/
theorem factor_failed (e : Exc) {o : Outside} :
    FactorServed srv env req w (answer req.route (.error e)) ⟨w.db, o⟩ :=
  .inl ⟨succeeded_error _ e, rfl⟩

theorem serve_mfa_setup {credentials : Option Token} (hc : schema.Consistent w.db) :
    FactorServed srv env ⟨credentials, .mfa_setup⟩ w (serve srv env ⟨credentials, .mfa_setup⟩ w).1
      (serve srv env ⟨credentials, .mfa_setup⟩ w).2 := by
  refine serve_wps (wps_current_user_bind (fun e => factor_failed e) fun auth hauth => ?_)
  refine wps_bind ((wp_rethrow _ _).mpr (wps_start_enrolment_moved hc (fun e _ => factor_failed _) ?_))
  refine fun pending s' hmoved => (wp_pure _).mpr ⟨fun _ => ?_, fun _ => factor_failed _⟩
  exact .inr ⟨auth.account.id, rfl, hauth.bearer, hmoved⟩

theorem serve_mfa_confirm {credentials : Option Token} {code : String}
    (hc : schema.Consistent w.db) :
    FactorServed srv env ⟨credentials, .mfa_confirm code⟩ w
      (serve srv env ⟨credentials, .mfa_confirm code⟩ w).1
      (serve srv env ⟨credentials, .mfa_confirm code⟩ w).2 := by
  refine serve_wps (wps_current_user_bind (fun e => factor_failed e) fun auth hauth => ?_)
  refine wps_require_bind (fun _ => factor_failed _) fun _ => ?_
  refine wps_bind ((wp_rethrow _ _).mpr
    (wps_confirm_enrolment_moved hc (fun e _ => factor_failed _) ?_))
  refine fun s' hmoved => (wp_pure _).mpr ⟨fun _ => ?_, fun _ => factor_failed _⟩
  exact .inr ⟨auth.account.id, rfl, hauth.bearer, hmoved⟩

theorem serve_mfa_verify {credentials : Option Token} {challenge_token : Token} {code : String}
    (hc : schema.Consistent w.db) :
    FactorServed srv env ⟨credentials, .mfa_verify challenge_token code⟩ w
      (serve srv env ⟨credentials, .mfa_verify challenge_token code⟩ w).1
      (serve srv env ⟨credentials, .mfa_verify challenge_token code⟩ w).2 := by
  refine serve_wps (wps_require_bind (fun _ => factor_failed _) fun _ => ?_)
  refine wps_require_bind (fun _ => factor_failed _) fun _ => ?_
  refine wps_some_or_bind (fun _ => factor_failed _) fun user_id hdecode => ?_
  refine wps_select_one_bind (factor_failed _) (fun _ => ?_) fun account _ hid _ => ?_
  · exact wps_some_or_bind (fun _ => factor_failed _) (fun _ h => by cases h)
  refine wps_some_or_bind (fun _ => factor_failed _) fun account' haccount => ?_
  cases haccount
  have hid : account.id = user_id := by simpa using hid
  subst hid
  refine wps_require_bind (fun _ => factor_failed _) fun _ => ?_
  refine wps_bind ((wp_rethrow _ _).mpr (wps_verify_code (fun _ _ => factor_failed _) ?_))
  intro db faults hspent
  refine wps_bind (wps_complete_login (fun _ _ => factor_failed _) fun issued s' hdb _ => ?_)
  refine (wp_pure _).mpr ⟨fun _ => ?_, fun _ => factor_failed _⟩
  have hmoved := moved_of_spent hc hspent
  -- the session and its record are rows of other tables
  have hfactor : ∀ other, factor s'.db other = factor db other := by
    intro other
    unfold factor
    rw [hdb, signed_in_rows, Schema.effect_insert_ne _ _ (by decide),
      Schema.effect_insert_ne _ _ (by decide), Schema.effect_insert_ne _ _ (by decide),
      Schema.effect_insert_ne _ _ (by decide)]
  refine .inr ⟨account.id, rfl, hdecode, ?_, fun other hother => ?_⟩
  · show FactorStep _ _ (factor s'.db account.id)
    rw [hfactor]
    exact hmoved.own
  · show factor s'.db other = _
    rw [hfactor]
    exact hmoved.others other hother

/-- With a code accepted, dropping what is there is announced by the code. -/
theorem dropped_of_spent {code : String} {db db' : Database}
    (h : CodeSpent srv env account code db (by_recovery srv env db account.id code) db') :
    FactorStep (factor db account.id) (code_event srv env db account.id code) ⟨[], []⟩ := by
  unfold code_event
  generalize by_recovery srv env db account.id code = recovery at h
  cases h with
  | totp m step enrolled active right later => exact .drop _
  | recovery m c enrolled active mem owner right unused =>
    have hone : enrolments_of (db .user_mfa) account.id = [m] := enrolled
    unfold factor
    rw [if_pos rfl, hone, ← right]
    exact .drop_by_code m _ c active (mem_codes.mpr ⟨mem, owner⟩) unused

/-- What a handler leaves is consistent, and may be assumed to be. -/
theorem wps_consistent {α : Type} {p : Handler α} {Q : Except Exc α → Session → Prop}
    (hc : schema.Consistent s.db)
    (h : wps p (fun r s' => schema.Consistent s'.db → Q r s') s) : wps p Q s := by
  have hend := exec_consistent p hc
  unfold wps wp at h ⊢
  exact h hend

theorem serve_mfa_disable {credentials : Option Token} {password code : String}
    (hc : schema.Consistent w.db) :
    FactorServed srv env ⟨credentials, .mfa_disable password code⟩ w
      (serve srv env ⟨credentials, .mfa_disable password code⟩ w).1
      (serve srv env ⟨credentials, .mfa_disable password code⟩ w).2 := by
  refine serve_wps (wps_current_user_bind (fun e => factor_failed e) fun auth hauth => ?_)
  refine wps_require_bind (fun _ => factor_failed _) fun _ => ?_
  refine wps_require_bind (fun _ => factor_failed _) fun _ => ?_
  refine wps_require_bind (fun _ => factor_failed _) fun _ => ?_
  refine wps_bind ((wp_rethrow _ _).mpr (wps_consistent hc
    (wps_verify_code (fun _ _ _ => factor_failed _) ?_)))
  intro db faults hspent hdb
  have hmoved := moved_of_spent hc hspent
  refine wps_bind ((wp_rethrow _ _).mpr (wps_disable_mfa_moved hdb (fun _ _ => factor_failed _) ?_))
  refine fun s' hown hothers => (wp_pure _).mpr ⟨fun _ => ?_, fun _ => factor_failed _⟩
  refine .inr ⟨auth.account.id, rfl, hauth.bearer, ?_, fun other hother => ?_⟩
  · show FactorStep _ _ (factor s'.db auth.account.id)
    rw [hown]
    exact dropped_of_spent hspent
  · show factor s'.db other = _
    rw [hothers other hother]
    exact hmoved.others other hother

theorem serve_delete_own_account {credentials : Option Token} {password : String}
    {mfa_code : Option String} {acknowledge : Bool} (hc : schema.Consistent w.db) :
    FactorServed srv env ⟨credentials, .delete_own_account password mfa_code acknowledge⟩ w
      (serve srv env ⟨credentials, .delete_own_account password mfa_code acknowledge⟩ w).1
      (serve srv env ⟨credentials, .delete_own_account password mfa_code acknowledge⟩ w).2 := by
  refine serve_wps (wps_current_user_bind (fun e => factor_failed e) fun auth hauth => ?_)
  refine wps_require_bind (fun _ => factor_failed _) fun _ => ?_
  refine wps_require_bind (fun _ => factor_failed _) fun _ => ?_
  refine wps_require_bind (fun _ => factor_failed _) fun _ => ?_
  -- once the owner is let through, the account goes
  have hdestroy : ∀ (db : Database) (faults : List Bool), schema.Consistent db →
      (∀ other, other ≠ auth.account.id → factor db other = factor w.db other) →
      FactorStep (factor w.db auth.account.id) ((announced srv env
        ⟨credentials, .delete_own_account password mfa_code acknowledge⟩ w.db).2 auth.account.id)
          ⟨[], []⟩ →
      wps (destroy auth.account) (settles .commit_failed env.commits (w.met env) fun r w' =>
        FactorServed srv env ⟨credentials, .delete_own_account password mfa_code acknowledge⟩ w
          (answer (Request.route ⟨credentials, .delete_own_account password mfa_code acknowledge⟩) r)
          w') { (w.begin env) with db := db, faults := faults } := by
    intro db faults hdb hothers hstep
    refine wps_bind (wps_bind (wp_snapshot.mpr ((wp_pure _).mpr ?_)))
    refine wps_bind (wps_delete_account (fun _ _ _ => factor_failed _) fun summary s' hgone hext => ?_)
    refine wps_bind (wps_purge_objects fun n => (wp_pure _).mpr ⟨fun _ => ?_, fun _ => factor_failed _⟩)
    refine .inr ⟨auth.account.id, rfl, hauth.bearer, ?_, fun other hother => ?_⟩
    · show FactorStep _ _ (factor s'.db auth.account.id)
      rw [hgone, factor_without_account hdb, if_pos rfl]
      exact hstep
    · show factor s'.db other = _
      rw [hgone, factor_without_account hdb, if_neg hother]
      exact hothers other hother
  refine wps_bind (wps_consistent hc (wps_reauthenticate_by (fun _ _ _ => factor_failed _) ?_ ?_))
  · intro _ hinactive hdb
    refine hdestroy _ _ hdb (fun _ _ => rfl) ?_
    have hsilent : (announced srv env ⟨credentials,
        .delete_own_account password mfa_code acknowledge⟩ w.db).2 auth.account.id = .silent := by
      cases mfa_code with
      | none => rfl
      | some code =>
        have hnot : by_recovery srv env w.db auth.account.id code = false := by
          unfold by_recovery
          refine List.any_eq_false.mpr fun m hm => ?_
          have hm := mem_enrolments.mp hm
          simp [hinactive m hm.1 hm.2]
        simp [announced, code_event, hnot]
    rw [hsilent]
    exact .drop _
  · intro _ code db faults hgiven hspent hdb
    have hmoved := moved_of_spent hc hspent
    refine hdestroy db faults hdb hmoved.others ?_
    subst hgiven
    exact dropped_of_spent hspent

end served

/-! ### Every step -/

/-- The routes that may write to the two tables. -/
def Route.about_factor : Route Token → Bool
  | .mfa_setup => true
  | .mfa_confirm _ => true
  | .mfa_verify _ _ => true
  | .mfa_disable _ _ => true
  | .delete_own_account _ _ _ => true
  | _ => false

/-- A statement that the other routes may issue is not about the two tables, nor about
    the accounts they hang off. -/
theorem about_other_table {req : Request Token} {wr : Write Row Patch Uuid}
    (hroute : req.route.about_factor = false) (hp : permits srv env req.route (.write wr))
    {t : Table} (ht : t = .user_mfa ∨ t = .recovery_code) (db : Database) :
    schema.effect (schema.resolve db wr) db t = db t := by
  obtain ⟨credentials, route⟩ := req
  -- each statement on the two tables is permitted to routes about the factor only
  have hno : ∀ {b : Bool}, b = true → (b = true → route.about_factor = true) → False := by
    intro b hb himp
    have habout := himp hb
    rw [hroute] at habout
    cases habout
  have hsets : route.sets_up = true → route.about_factor = true := by
    cases route <;> first | exact fun _ => rfl | exact fun h => by cases h
  have hconfirms : route.confirms = true → route.about_factor = true := by
    cases route <;> first | exact fun _ => rfl | exact fun h => by cases h
  have hchecks : route.checks_code = true → route.about_factor = true := by
    cases route <;> first | exact fun _ => rfl | exact fun h => by cases h
  have hdisables : route.disables = true → route.about_factor = true := by
    cases route <;> first | exact fun _ => rfl | exact fun h => by cases h
  have hdeletes : route.deletes_account = true → route.about_factor = true := by
    cases route <;> first | exact fun _ => rfl | exact fun h => by cases h
  cases wr with
  | insert t' row =>
    refine Schema.effect_insert_ne _ _ ?_
    rintro rfl
    rcases ht with rfl | rfl
    · exact hno hp.2.1 hsets
    · exact hno hp.2 hsets
  | update t' id patch =>
    refine Schema.effect_update_ne _ _ _ ?_
    rintro rfl
    rcases ht with rfl | rfl
    · cases patch with
      | restart secret clears => exact hno hp hsets
      | confirm now step => exact hno hp hconfirms
      | consume step => exact hno hp hchecks
    · exact hno hp hchecks
  | delete t' id =>
    have hleaf : ∀ t'', ∀ k ∈ schema.keys t'', k.target ≠ t' := by
      refine (leaf_of_permitted hp).resolve_left ?_
      rintro rfl
      exact hno hp hdeletes
    have hne : t ≠ t' := by
      rintro rfl
      rcases ht with rfl | rfl
      · exact hno hp hdisables
      · rcases Bool.or_eq_true_iff.mp hp with hset | hdisable
        · exact hno hset hsets
        · exact hno hdisable hdisables
    have hrigid : schema.Rigid t := by
      rcases ht with rfl | rfl
      · exact rigid (by decide)
      · exact rigid (by decide)
    rw [Schema.resolve, deleted_alone hleaf hrigid]
    exact List.filter_eq_self.mpr fun r _ => by simp [hne]

/-- The other steps leave both tables as they are. -/
theorem factor_untouched {step : Step Token} {w : Committed}
    (hroute : ∀ env req, step = .request env req → req.route.about_factor = false) (user_id : Uuid) :
    factor (step.run srv w).db user_id = factor w.db user_id := by
  let J : Database → Prop := fun db =>
    db .user_mfa = w.db .user_mfa ∧ db .recovery_code = w.db .recovery_code
  have hJ : J (step.run srv w).db := by
    refine Step.run_db_invariant (fun wr db hp _ hdb => ?_) ⟨rfl, rfl⟩
    have hsame : ∀ t, t = .user_mfa ∨ t = .recovery_code →
        schema.effect (schema.resolve db wr) db t = db t := by
      intro t ht
      cases step with
      | request env req => exact about_other_table (hroute env req rfl) hp ht db
      | ocr env document_id engine =>
        -- OCR updates documents and pages
        cases wr with
        | insert t' row => exact hp.elim
        | delete t' id => exact hp.elim
        | update t' id patch =>
          refine Schema.effect_update_ne _ _ _ ?_
          rintro rfl
          rcases ht with rfl | rfl <;> exact hp.elim
    exact ⟨(hsame _ (.inl rfl)).trans hdb.1, (hsame _ (.inr rfl)).trans hdb.2⟩
  unfold factor
  rw [hJ.1, hJ.2]

/-- **Step.** Every step of the server is one that `FactorStep` allows, for every account. -/
theorem factor_step (step : Step Token) {w : Committed} (hc : schema.Consistent w.db)
    (user_id : Uuid) :
    FactorStep (factor w.db user_id) (factor_event srv user_id (step, w))
      (factor (step.run srv w).db user_id) := by
  have hother : (∀ env req, step = .request env req → req.route.about_factor = false) →
      factor_event srv user_id (step, w) = .silent →
      FactorStep (factor w.db user_id) (factor_event srv user_id (step, w))
        (factor (step.run srv w).db user_id) := by
    intro hroute hsilent
    rw [factor_untouched hroute, hsilent]
    exact .stay _
  cases step with
  | ocr env document_id engine => exact hother (fun _ _ h => by cases h) rfl
  | request env req =>
    obtain ⟨credentials, route⟩ := req
    cases route
    case mfa_setup => exact (serve_mfa_setup hc).step user_id
    case mfa_confirm code => exact (serve_mfa_confirm hc).step user_id
    case mfa_verify challenge_token code => exact (serve_mfa_verify hc).step user_id
    case mfa_disable password code => exact (serve_mfa_disable hc).step user_id
    case delete_own_account password mfa_code acknowledge =>
      exact (serve_delete_own_account hc).step user_id
    all_goals
      refine hother (fun env' req' h => ?_) ?_
      · obtain ⟨rfl, rfl⟩ := Step.request.inj h
        rfl
      · simp [factor_event, announced]

end CounselReady
