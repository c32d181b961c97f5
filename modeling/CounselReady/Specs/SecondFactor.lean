import CounselReady.Rules

/-! # What the Second-Factor Check Establishes

    `verify_code_for_login` returns after it has used something up: a time step
    later than the last one, or a recovery code nobody had used. When it raises,
    the rows are as they were.
-/

namespace CounselReady

open Relational Framework Handler Prog

variable {Token : Type} {srv : Server Token} {env : Env} {s : Session} {account : UserAccount}

/-! ### Codes -/

/-- The code is the one the enrolled secret shows at a step next to the present one. -/
def CodeMatches (srv : Server Token) (env : Env) (m : UserMfa) (code : String) (step : Int) :
    Prop :=
  ∃ key secret, srv.mfa_encryption_key = some key ∧
    srv.fernet_decrypt key m.encrypted_secret = some secret ∧
    srv.totp_at secret step = without ' ' (strip code) ∧
    counter_for (timestamp env.now) - 1 ≤ step ∧ step ≤ counter_for (timestamp env.now) + 1

/-- What an accepted code has used up. -/
inductive CodeAccepted (srv : Server Token) (env : Env) (account : UserAccount) (code : String)
    (db : Database) : Database → Prop where
  | totp (m : UserMfa) (step : Int) (mem : m ∈ db .user_mfa) (owner : m.user_id = account.id)
      (active : m.is_active = true) (right : CodeMatches srv env m code step)
      (later : ∀ last, m.last_used_counter = some last → last < step) :
      CodeAccepted srv env account code db
        (schema.effect (.update .user_mfa m.id (.consume step)) db)
  | recovery (m : UserMfa) (c : RecoveryCode) (enrolled : m ∈ db .user_mfa)
      (holder : m.user_id = account.id) (active : m.is_active = true)
      (mem : c ∈ db .recovery_code) (owner : c.user_id = account.id)
      (right : c.digest = hash_recovery_code srv code) (unused : c.used_at = none) :
      CodeAccepted srv env account code db
        (schema.effect (.update .recovery_code c.id (.use env.now)) db)

theorem CodeAccepted.other {code : String} {db db' : Database}
    (h : CodeAccepted srv env account code db db') {t : Table} (hm : .user_mfa ≠ t)
    (hr : .recovery_code ≠ t) : db' t = db t := by
  cases h with
  | totp m step => exact Schema.effect_update_ne _ _ _ hm
  | recovery m c => exact Schema.effect_update_ne _ _ _ hr

/-! ### The check -/

theorem wps_decrypt_secret {encrypted : String} {Q : Except Exc String → Session → Prop}
    (herr : ∀ e, Q (.error e) s)
    (hok : ∀ key secret, srv.mfa_encryption_key = some key →
      srv.fernet_decrypt key encrypted = some secret → Q (.ok secret) s) :
    wps (decrypt_secret srv encrypted) Q s := by
  refine wps_bind ?_
  unfold cipher
  cases hkey : srv.mfa_encryption_key with
  | none => exact (wp_raise _).mpr (herr _)
  | some key =>
    refine (wp_ite _ _).mpr ⟨fun _ => (wp_raise _).mpr (herr _), fun _ => ?_⟩
    refine (wp_ite _ _).mpr ⟨fun _ => (wp_pure _).mpr ?_, fun _ => (wp_raise _).mpr (herr _)⟩
    exact wps_some_or.mpr ⟨fun secret hsecret => hok key secret hkey hsecret, fun _ => herr _⟩

theorem wps_decrypt_secret_bind {β : Type} {encrypted : String} {f : String → Handler β}
    {Q : Except Exc β → Session → Prop} (herr : ∀ e, Q (.error e) s)
    (hok : ∀ key secret, srv.mfa_encryption_key = some key →
      srv.fernet_decrypt key encrypted = some secret → wps (f secret) Q s) :
    wps (decrypt_secret srv encrypted >>= f) Q s :=
  wps_bind (wps_decrypt_secret herr hok)

theorem wps_first_matching {secret cleaned : String} {steps : List Int}
    {Q : Except Exc (Option Int) → Session → Prop} (herr : ∀ e, Q (.error e) s)
    (hnone : (∀ step ∈ steps, srv.totp_at secret step ≠ cleaned) → Q (.ok none) s)
    (hsome : ∀ step ∈ steps, srv.totp_at secret step = cleaned → Q (.ok (some step)) s) :
    wps (first_matching srv secret cleaned steps) Q s := by
  induction steps with
  | nil => exact (wp_pure _).mpr (hnone fun _ h => by cases h)
  | cons step steps ih =>
    refine wps_bind ?_
    unfold compare_digest
    refine (wp_ite _ _).mpr ⟨fun _ => (wp_pure _).mpr ?_, fun _ => (wp_raise _).mpr (herr _)⟩
    refine (wp_ite _ _).mpr ⟨fun hsame => (wp_pure _).mpr ?_, fun hother => ?_⟩
    · exact hsome step List.mem_cons_self (beq_iff_eq.mp hsame)
    · have hother : srv.totp_at secret step ≠ cleaned := fun heq => hother (beq_iff_eq.mpr heq)
      refine ih (fun hrest => hnone ?_) fun later hlater => hsome later (List.mem_cons_of_mem _ hlater)
      exact List.forall_mem_cons.mpr ⟨hother, hrest⟩

/-- The secret shows the code now, or shows it in the step before or after. -/
def shows (srv : Server Token) (secret code : String) (time : Nat) : Bool :=
  let cleaned := without ' ' (strip code)
  is_digit_str srv cleaned &&
    [counter_for time - 1, counter_for time, counter_for time + 1].any
      (fun step => srv.totp_at secret step == cleaned)

theorem wps_matching_counter {secret code : String} {time : Nat}
    {Q : Except Exc (Option Int) → Session → Prop} (herr : ∀ e, Q (.error e) s)
    (hnone : shows srv secret code time = false → Q (.ok none) s)
    (hsome : ∀ step, shows srv secret code time = true →
      srv.totp_at secret step = without ' ' (strip code) →
      counter_for time - 1 ≤ step → step ≤ counter_for time + 1 → Q (.ok (some step)) s) :
    wps (matching_counter srv secret code time) Q s := by
  unfold matching_counter
  dsimp only
  rw [window_steps]
  refine (wp_ite _ _).mpr ⟨fun hdigits => ?_, fun hdigits => (wp_pure _).mpr (hnone ?_)⟩
  · refine wps_first_matching herr (fun hother => hnone ?_) fun step hstep hcode => ?_
    · simp only [shows, hdigits, Bool.true_and, List.any_eq_false, beq_iff_eq]
      exact hother
    · have hshows : shows srv secret code time = true := by
        simp only [shows, hdigits, Bool.true_and, List.any_eq_true, beq_iff_eq]
        exact ⟨step, hstep, hcode⟩
      simp only [List.mem_cons, List.not_mem_nil, or_false] at hstep
      exact hsome step hshows hcode (by omega) (by omega)
  · have hdigits : is_digit_str srv (without ' ' (strip code)) = false := by simpa using hdigits
    simp only [shows, hdigits, Bool.false_and]

/-- The active enrolment does not show the code: it is looked up as a recovery code. -/
def by_recovery (srv : Server Token) (env : Env) (db : Database) (user_id : Uuid)
    (code : String) : Bool :=
  ((db .user_mfa).filter (fun m : UserMfa => m.user_id == user_id)).any (fun m : UserMfa =>
    m.is_active && (srv.mfa_encryption_key.bind (fun key =>
      srv.fernet_decrypt key m.encrypted_secret)).any
        (fun secret => !shows srv secret code (timestamp env.now)))

/-- What an accepted code has used up, with the way it was accepted: the enrolment is the
    one of the account, and so is the recovery code. -/
inductive CodeSpent (srv : Server Token) (env : Env) (account : UserAccount) (code : String)
    (db : Database) : Bool → Database → Prop where
  | totp (m : UserMfa) (step : Int)
      (enrolled : (db .user_mfa).filter (fun m : UserMfa => m.user_id == account.id) = [m])
      (active : m.is_active = true) (right : CodeMatches srv env m code step)
      (later : ∀ last, m.last_used_counter = some last → last < step) :
      CodeSpent srv env account code db false
        (schema.effect (.update .user_mfa m.id (.consume step)) db)
  | recovery (m : UserMfa) (c : RecoveryCode)
      (enrolled : (db .user_mfa).filter (fun m : UserMfa => m.user_id == account.id) = [m])
      (active : m.is_active = true) (mem : c ∈ db .recovery_code) (owner : c.user_id = account.id)
      (right : c.digest = hash_recovery_code srv code) (unused : c.used_at = none) :
      CodeSpent srv env account code db true
        (schema.effect (.update .recovery_code c.id (.use env.now)) db)

theorem CodeSpent.accepted {code : String} {db db' : Database} {recovery : Bool}
    (h : CodeSpent srv env account code db recovery db') :
    CodeAccepted srv env account code db db' := by
  have hmem : ∀ {m : UserMfa}, (db .user_mfa).filter
      (fun m : UserMfa => m.user_id == account.id) = [m] →
        m ∈ db .user_mfa ∧ m.user_id = account.id := by
    intro m hone
    have hm : m ∈ (db .user_mfa).filter (fun m : UserMfa => m.user_id == account.id) := by
      rw [hone]
      exact List.mem_singleton_self m
    exact ⟨(List.mem_filter.mp hm).1, beq_iff_eq.mp (List.mem_filter.mp hm).2⟩
  cases h with
  | totp m step enrolled active right later =>
    exact .totp m step (hmem enrolled).1 (hmem enrolled).2 active right later
  | recovery m c enrolled active mem owner right unused =>
    exact .recovery m c (hmem enrolled).1 (hmem enrolled).2 active mem owner right unused

/-- **The check**, with the way the code is accepted. -/
theorem wps_verify_code {code : String} {Q : Except Exc Unit → Session → Prop}
    (herr : ∀ e faults, Q (.error e) { s with faults := faults })
    (hok : ∀ db faults,
      CodeSpent srv env account code s.db (by_recovery srv env s.db account.id code) db →
      Q (.ok ()) { s with db := db, faults := faults }) :
    wps (verify_code_for_login srv env account code) Q s := by
  refine wps_select_one_bind (herr _ _) (fun _ => ?_) fun m _ _ hone => ?_
  · exact wps_some_or_bind (fun _ => herr _ _) (fun _ h => by cases h)
  refine wps_some_or_bind (fun _ => herr _ _) fun record hrecord => ?_
  cases hrecord
  refine wps_require_bind (fun _ => herr _ _) fun hactive => ?_
  refine wps_decrypt_secret_bind (fun _ => herr _ _) fun key secret hkey hsecret => ?_
  have hway : by_recovery srv env s.db account.id code =
      !shows srv secret code (timestamp env.now) := by
    unfold by_recovery
    rw [hone]
    simp [hactive, hkey, hsecret]
  rw [hway] at hok
  refine wps_bind (wps_matching_counter (fun _ => herr _ _) (fun hnot => ?_)
    fun step hshows hcode hlow hhigh => ?_)
  · -- no time step has this code: it is tried as a recovery code
    rw [hnot] at hok
    refine wps_select_one_bind (herr _ _) (fun _ => ?_) fun c hc hpick _ => ?_
    · exact wps_some_or_bind (fun _ => herr _ _) (fun _ h => by cases h)
    refine wps_some_or_bind (fun _ => herr _ _) fun recovery hrecovery => ?_
    cases hrecovery
    have hpick' : RecoveryCode.user_id c = account.id ∧
        c.digest = hash_recovery_code srv code := by simpa using hpick
    refine wps_require_bind (fun _ => herr _ _) fun hunused => ?_
    refine wps_execute (fun _ => herr _ _) fun _ => hok _ _ ?_
    exact .recovery m c hone hactive hc hpick'.1 hpick'.2 (Option.isNone_iff_eq_none.mp hunused)
  · rw [hshows] at hok
    refine wps_require_bind (fun _ => herr _ _) fun hlater => ?_
    refine wps_execute (fun _ => herr _ _) fun _ => hok _ _ ?_
    refine .totp m step hone hactive ⟨key, secret, hkey, hsecret, hcode, hlow, hhigh⟩ ?_
    intro last hlast
    rw [hlast] at hlater
    simpa using hlater

/-- **The check.** It returns with a code used up, or leaves the rows as they were. -/
theorem wps_verify_code_for_login {code : String} {Q : Except Exc Unit → Session → Prop}
    (herr : ∀ e faults, Q (.error e) { s with faults := faults })
    (hok : ∀ db faults, CodeAccepted srv env account code s.db db →
      Q (.ok ()) { s with db := db, faults := faults }) :
    wps (verify_code_for_login srv env account code) Q s :=
  wps_verify_code herr fun db faults hspent => hok db faults hspent.accepted

end CounselReady
