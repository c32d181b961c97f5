import CounselReady.Specs.Admission
import CounselReady.Specs.SecondFactor

/-! # The Second-Factor Check, Exactly

    With rows that meet the constraints and a database that carries out its
    statements: which code is accepted, which one is refused, and which one the
    comparison cannot take.
-/

namespace CounselReady

open Relational Framework Handler Prog

variable {Token : Type} {srv : Server Token} {env : Env} {s : Session} {account : UserAccount}

/-! ### Comparing -/

/-- The code as it is compared with the time steps. -/
def cleaned (code : String) : String := without ' ' (strip code)

/-- The time steps whose codes are tried, in the order they are tried. -/
def window (now : Nat) : List Int :=
  [counter_for (timestamp now) - 1, counter_for (timestamp now), counter_for (timestamp now) + 1]

/-- All digits to `str.isdigit`, but not all of them ASCII. -/
def odd_digits (srv : Server Token) (code : String) : Bool :=
  is_digit_str srv (cleaned code) && !is_ascii (cleaned code)

/-- The codes of the authenticator are ASCII. -/
def AsciiCodes (srv : Server Token) : Prop :=
  ∀ secret step, is_ascii (srv.totp_at secret step) = true

/-- The first step of the window that shows the code. -/
def matched_step (srv : Server Token) (secret code : String) (now : Nat) : Option Int :=
  if is_digit_str srv (cleaned code) then
    (window now).find? (fun step => srv.totp_at secret step == cleaned code)
  else none

theorem first_matching_eq (htotp : AsciiCodes srv) (secret : String) {presented : String}
    (hascii : is_ascii presented = true) (steps : List Int) :
    first_matching srv secret presented steps =
      pure (steps.find? (fun step => srv.totp_at secret step == presented)) := by
  induction steps with
  | nil => rfl
  | cons step steps ih =>
    have hcompare : compare_digest (srv.totp_at secret step) presented =
        pure (srv.totp_at secret step == presented) := by
      unfold compare_digest
      rw [htotp, hascii]
      rfl
    unfold first_matching
    rw [hcompare]
    show (if (srv.totp_at secret step == presented) = true then pure (some step)
      else first_matching srv secret presented steps) = _
    rw [List.find?_cons]
    cases hsame : srv.totp_at secret step == presented with
    | true => rfl
    | false => exact ih

theorem matching_counter_eq (htotp : AsciiCodes srv) (secret : String) {code : String}
    (hodd : odd_digits srv code = false) (now : Nat) :
    matching_counter srv secret code (timestamp now) = pure (matched_step srv secret code now) := by
  unfold matching_counter matched_step
  dsimp only
  rw [window_steps]
  show (if is_digit_str srv (cleaned code) = true then first_matching srv secret (cleaned code)
    (window now) else pure none) = _
  by_cases hdigits : is_digit_str srv (cleaned code) = true
  · have hascii : is_ascii (cleaned code) = true := by
      simpa [odd_digits, hdigits] using hodd
    rw [if_pos hdigits, if_pos hdigits, first_matching_eq htotp secret hascii]
  · rw [if_neg hdigits, if_neg hdigits]

/-- The first comparison raises, before any step has been looked at. -/
theorem matching_counter_odd (secret : String) {code : String}
    (hodd : odd_digits srv code = true) (now : Nat) :
    matching_counter srv secret code (timestamp now) = .raise .type_error := by
  obtain ⟨hdigits, hascii⟩ := Bool.and_eq_true_iff.mp hodd
  have hnot : is_ascii (cleaned code) = false := by simpa using hascii
  unfold matching_counter
  dsimp only
  rw [window_steps]
  show (if is_digit_str srv (cleaned code) = true then first_matching srv secret (cleaned code)
    (window now) else pure none) = _
  rw [if_pos hdigits]
  unfold window first_matching compare_digest
  rw [hnot, Bool.and_false]
  rfl

/-! ### Who has a second factor -/

/-- The secret under the server's key, when there is one and it fits. -/
def decrypts (srv : Server Token) (encrypted : String) : Option String :=
  srv.mfa_encryption_key.bind fun key =>
    if key.isEmpty then none
    else if srv.fernet_key key then srv.fernet_decrypt key encrypted else none

theorem wps_decrypt_secret_exact {β : Type} {encrypted : String} {f : String → Handler β}
    {Q : Except Exc β → Session → Prop}
    (hnone : decrypts srv encrypted = none →
      ∀ e, e = .mfa_not_configured ∨ e = .secret_decryption → Q (.error e) s)
    (hsome : ∀ secret, decrypts srv encrypted = some secret → wps (f secret) Q s) :
    wps (decrypt_secret srv encrypted >>= f) Q s := by
  unfold decrypts at hnone hsome
  refine wps_bind (wps_bind ?_)
  unfold cipher
  cases hkey : srv.mfa_encryption_key with
  | none =>
    rw [hkey] at hnone
    exact (wp_raise _).mpr (hnone rfl _ (.inl rfl))
  | some key =>
    rw [hkey] at hnone hsome
    simp only [Option.bind_some] at hnone hsome
    refine (wp_ite _ _).mpr ⟨fun hempty => (wp_raise _).mpr ?_, fun hfilled => ?_⟩
    · rw [if_pos hempty] at hnone
      exact hnone rfl _ (.inl rfl)
    rw [if_neg hfilled] at hnone hsome
    refine (wp_ite _ _).mpr ⟨fun hfits => (wp_pure _).mpr ?_, fun hbad => (wp_raise _).mpr ?_⟩
    · rw [if_pos hfits] at hnone hsome
      refine wps_some_or.mpr ⟨fun secret hsecret => hsome secret hsecret, fun h => ?_⟩
      exact hnone h _ (.inr rfl)
    · rw [if_neg hbad] at hnone
      exact hnone rfl _ (.inl rfl)

/-- The enrolment of the account is active or not, and its secret decrypts. -/
structure Enrolled (srv : Server Token) (db : Database) (account : UserAccount) (active : Bool)
    (m : UserMfa) (secret : String) : Prop where
  mem : m ∈ db .user_mfa
  owner : m.user_id = account.id
  state : m.is_active = active
  secret : decrypts srv m.encrypted_secret = some secret

theorem one_enrolment {db : Database} (hc : schema.Consistent db) (user_id : Uuid) :
    ((db .user_mfa).filter (fun m : UserMfa => m.user_id == user_id)).length ≤ 1 := by
  refine hc.select_indexed (fun (a b : Row .user_mfa) ha hb => ?_)
  have hsame : UserMfa.user_id a = UserMfa.user_id b := (eq_of_beq ha).trans (eq_of_beq hb).symm
  exact beq_iff_eq.mpr hsame

theorem Enrolled.unique {db : Database} (hc : schema.Consistent db) {active active' : Bool}
    {m m' : UserMfa} {secret secret' : String} (h : Enrolled srv db account active m secret)
    (h' : Enrolled srv db account active' m' secret') : m = m' ∧ secret = secret' := by
  have hclash : schema.clash .user_mfa m m' = true :=
    beq_iff_eq.mpr (h.owner.trans h'.owner.symm)
  obtain rfl : m = m' := hc.eq_of_clash schema_regular h.mem h'.mem hclash
  exact ⟨rfl, Option.some.inj (h.secret.symm.trans h'.secret)⟩

/-- A recovery code of the account that nobody has used. -/
structure UnusedCode (srv : Server Token) (db : Database) (account : UserAccount) (code : String)
    (c : RecoveryCode) : Prop where
  mem : c ∈ db .recovery_code
  owner : c.user_id = account.id
  digest : c.digest = hash_recovery_code srv code
  unused : c.used_at = none

theorem one_recovery_code {db : Database} (hc : schema.Consistent db) (user_id : Uuid)
    (digest : String) : ((db .recovery_code).filter
      (fun c : RecoveryCode => c.user_id == user_id && c.digest == digest)).length ≤ 1 := by
  refine hc.select_indexed (fun (a b : Row .recovery_code) ha hb => ?_)
  simp only [Bool.and_eq_true, beq_iff_eq] at ha hb
  simp [schema, row_clash, ha.1, ha.2, hb.1, hb.2]

/-! ### The check -/

theorem check_consume {db : Database} (hc : schema.Consistent db) (hf : schema.Fitting db)
    {m : UserMfa} (hm : m ∈ db .user_mfa) (step : Int) :
    schema.check db (.update .user_mfa m.id (.consume step)) = none := by
  have heq : schema.check db (.update .user_mfa m.id (.consume step)) =
      schema.fits .user_mfa (schema.apply .user_mfa (.consume step) m) :=
    Schema.check_update_eq schema_regular hc hm (fun _ => rfl)
  rw [heq]
  exact hf .user_mfa m hm

theorem check_use {db : Database} (hc : schema.Consistent db) (hf : schema.Fitting db)
    {c : RecoveryCode} (hmem : c ∈ db .recovery_code) (now : Nat) :
    schema.check db (.update .recovery_code c.id (.use now)) = none := by
  have heq : schema.check db (.update .recovery_code c.id (.use now)) =
      schema.fits .recovery_code (schema.apply .recovery_code (.use now) c) :=
    Schema.check_update_eq schema_regular hc hmem (fun _ => rfl)
  rw [heq]
  exact hf .recovery_code c hmem

/-- Why there is nothing to compare a code with. -/
def NotComparable (e : Exc) : Prop :=
  e = .mfa_not_enrolled ∨ e = .mfa_not_configured ∨ e = .secret_decryption

/-- **The check is exact.** Each way it can end, with all that is known when it does. -/
theorem wps_verify_code_exact (htotp : AsciiCodes srv) {code : String}
    {Q : Except Exc Unit → Session → Prop} (hc : schema.Consistent s.db)
    (hf : schema.Fitting s.db) (hup : true ∉ s.faults)
    (hnothing : (∀ m secret, ¬ Enrolled srv s.db account true m secret) →
      ∀ e, NotComparable e → Q (.error e) s)
    (hodd : ∀ m secret, Enrolled srv s.db account true m secret → odd_digits srv code = true →
      Q (.error .type_error) s)
    (hspent : ∀ m secret step, Enrolled srv s.db account true m secret →
      odd_digits srv code = false → matched_step srv secret code env.now = some step →
      (∃ last, m.last_used_counter = some last ∧ step ≤ last) → Q (.error .invalid_mfa_code) s)
    (hstep : ∀ m secret step, Enrolled srv s.db account true m secret →
      odd_digits srv code = false → matched_step srv secret code env.now = some step →
      (∀ last, m.last_used_counter = some last → last < step) →
      Q (.ok ()) { s with
        db := schema.effect (.update .user_mfa m.id (.consume step)) s.db
        faults := s.faults.tail })
    (hunknown : ∀ m secret, Enrolled srv s.db account true m secret →
      odd_digits srv code = false → matched_step srv secret code env.now = none →
      (∀ c, ¬ UnusedCode srv s.db account code c) → Q (.error .invalid_mfa_code) s)
    (hrecovery : ∀ m secret c, Enrolled srv s.db account true m secret →
      odd_digits srv code = false → matched_step srv secret code env.now = none →
      UnusedCode srv s.db account code c →
      Q (.ok ()) { s with
        db := schema.effect (.update .recovery_code c.id (.use env.now)) s.db
        faults := s.faults.tail }) :
    wps (verify_code_for_login srv env account code) Q s := by
  refine wps_select_unique_bind (one_enrolment hc account.id) (fun hnone => ?_) fun m hm hid _ => ?_
  · refine wps_some_or_bind (fun _ => hnothing (fun m secret h => ?_) _ (.inl rfl))
      (fun _ h => by cases h)
    have hother := hnone m h.mem
    simp [h.owner] at hother
  refine wps_some_or_bind (fun h => by cases h) fun record hrecord => ?_
  cases hrecord
  have howner : UserMfa.user_id m = account.id := beq_iff_eq.mp hid
  -- an enrolment of the account is this one
  have hthis : ∀ m' secret, Enrolled srv s.db account true m' secret → m' = m := by
    intro m' secret h
    have hclash : schema.clash .user_mfa m' m = true := beq_iff_eq.mpr (h.owner.trans howner.symm)
    exact hc.eq_of_clash schema_regular h.mem hm hclash
  refine wps_require_bind (fun hinactive => hnothing (fun m' secret h => ?_) _ (.inl rfl))
    fun hactive => ?_
  · have hstate := h.state
    rw [hthis m' secret h, hinactive] at hstate
    cases hstate
  refine wps_decrypt_secret_exact (fun hnone e he => hnothing (fun m' secret h => ?_) e (.inr he))
    fun secret hsecret => ?_
  · have hdecrypts := h.secret
    rw [hthis m' secret h, hnone] at hdecrypts
    cases hdecrypts
  have henrolled : Enrolled srv s.db account true m secret := ⟨hm, howner, hactive, hsecret⟩
  cases hdigits : odd_digits srv code with
  | true =>
    rw [matching_counter_odd secret hdigits]
    exact (wp_raise _).mpr (hodd m secret henrolled hdigits)
  | false =>
    rw [matching_counter_eq htotp secret hdigits]
    cases hmatched : matched_step srv secret code env.now with
    | some step =>
      refine wps_require_bind (fun hlate => ?_) fun hlater => ?_
      · refine hspent m secret step henrolled hdigits hmatched ?_
        cases hlast : UserMfa.last_used_counter m with
        | none => simp [hlast] at hlate
        | some last =>
          rw [hlast] at hlate
          exact ⟨last, rfl, by simpa using hlate⟩
      · refine wps_execute_admitted hup (check_consume hc hf hm step) ?_
        refine hstep m secret step henrolled hdigits hmatched fun last hlast => ?_
        rw [hlast] at hlater
        simpa using hlater
    | none =>
      refine wps_select_unique_bind (one_recovery_code hc account.id (hash_recovery_code srv code))
        (fun hnone => ?_) fun c hmem hpick _ => ?_
      · refine wps_some_or_bind (fun _ => hunknown m secret henrolled hdigits hmatched
          fun c h => ?_) (fun _ h => by cases h)
        have hother := hnone c h.mem
        simp [h.owner, h.digest] at hother
      refine wps_some_or_bind (fun h => by cases h) fun recovery hsame => ?_
      cases hsame
      simp only [Bool.and_eq_true, beq_iff_eq] at hpick
      refine wps_require_bind (fun hused => ?_) fun hunused => ?_
      · refine hunknown m secret henrolled hdigits hmatched fun c' h => ?_
        have hclash : schema.clash .recovery_code c' c = true := by
          simp [schema, row_clash, h.owner, h.digest, hpick.1, hpick.2]
        obtain rfl : c' = c := hc.eq_of_clash schema_regular h.mem hmem hclash
        rw [h.unused] at hused
        cases hused
      · refine wps_execute_admitted hup (check_use hc hf hmem env.now) ?_
        exact hrecovery m secret c henrolled hdigits hmatched
          ⟨hmem, hpick.1, hpick.2, Option.isNone_iff_eq_none.mp hunused⟩

end CounselReady
