import CounselReady.Sample
import CounselReady.Specs.CodeCheck

/-! # Which Codes Are Accepted

    For an active enrolment a code is accepted when a step of the window that has
    not been spent shows it, or an unused recovery code has its digest. The
    guard against replay comes first: what a spent step of the window shows is
    refused, whatever else shows it.
-/

namespace CounselReady

open Relational Framework Handler Prog

variable {Token : Type} {srv : Server Token} {env : Env} {s : Session} {account : UserAccount}

/-! ### Six-digit codes -/

/-- An authenticator shows six digits, and `str.isdigit` knows them. -/
structure SixDigitCodes (srv : Server Token) : Prop where
  length : ∀ secret step, (srv.totp_at secret step).length = 6
  digits : ∀ secret step, ∀ c ∈ (srv.totp_at secret step).toList, c.isDigit = true
  is_digit : ∀ c : Char, c.isDigit = true → srv.is_digit c = true

theorem SixDigitCodes.ascii (h : SixDigitCodes srv) : AsciiCodes srv := by
  intro secret step
  unfold is_ascii
  rw [List.all_eq_true]
  intro c hc
  have hdigit := h.digits secret step c hc
  simp only [Char.isDigit, Bool.and_eq_true, decide_eq_true_eq] at hdigit
  have hbound : c.toNat ≤ 57 := hdigit.2
  exact decide_eq_true (by omega)

theorem SixDigitCodes.is_digit_str (h : SixDigitCodes srv) (secret : String) (step : Int) :
    is_digit_str srv (srv.totp_at secret step) = true := by
  have hsome : (srv.totp_at secret step).isEmpty = false := by
    rw [Bool.eq_false_iff]
    intro hempty
    have hlength := h.length secret step
    rw [String.isEmpty_iff.mp hempty] at hlength
    exact absurd hlength (by decide)
  unfold CounselReady.is_digit_str
  rw [hsome, Bool.not_false, Bool.true_and, List.all_eq_true]
  exact fun c hc => h.is_digit c (h.digits secret step c hc)

/-- Cleaning only takes characters away. -/
theorem mem_cleaned {code : String} {c : Char} (h : c ∈ (cleaned code).toList) :
    c ∈ code.toList := by
  unfold cleaned without strip at h
  simp only [String.toList_ofList, List.mem_filter] at h
  have hleft := (List.dropWhile_sublist py_space).mem (List.mem_reverse.mp h.1)
  exact (List.dropWhile_sublist py_space).mem (List.mem_reverse.mp hleft)

theorem ascii_not_odd {code : String} (hascii : is_ascii code = true) :
    odd_digits srv code = false := by
  have hcleaned : is_ascii (cleaned code) = true := by
    unfold is_ascii at hascii ⊢
    rw [List.all_eq_true] at hascii ⊢
    exact fun c hc => hascii c (mem_cleaned hc)
  simp [odd_digits, hcleaned]

/-! ### Steps -/

/-- A step of the window shows the code. -/
structure Shown (srv : Server Token) (env : Env) (secret code : String) (step : Int) : Prop where
  near : step ∈ window env.now
  code : srv.totp_at secret step = cleaned code

/-- The step, or a later one, has been used. -/
def Spent (m : UserMfa) (step : Int) : Prop :=
  ∃ last, m.last_used_counter = some last ∧ step ≤ last

theorem not_spent {m : UserMfa} {step : Int} :
    ¬ Spent m step ↔ ∀ last, m.last_used_counter = some last → last < step := by
  unfold Spent
  constructor
  · intro hnot last hlast
    by_contra hle
    exact hnot ⟨last, hlast, Int.not_lt.mp hle⟩
  · rintro hall ⟨last, hlast, hle⟩
    have hlt := hall last hlast
    omega

/-- The steps are tried from the earliest on, so a later one never hides an earlier one. -/
theorem matched_earliest {secret code : String} {step : Int}
    (h : matched_step srv secret code env.now = some step) :
    Shown srv env secret code step ∧
      ∀ other, Shown srv env secret code other → step ≤ other := by
  unfold matched_step at h
  by_cases hdigits : is_digit_str srv (cleaned code) = true
  · rw [if_pos hdigits] at h
    obtain ⟨hcode, before, after, hsplit, hbefore⟩ := List.find?_eq_some_iff_append.mp h
    have hnear : step ∈ window env.now := by
      rw [hsplit]
      exact List.mem_append_right _ List.mem_cons_self
    refine ⟨⟨hnear, beq_iff_eq.mp hcode⟩, ?_⟩
    intro other hother
    have hsorted : (window env.now).Pairwise (· < ·) := by
      simp only [window, List.pairwise_cons, List.mem_cons, List.not_mem_nil, or_false]
      refine ⟨?_, ?_, ?_⟩
      · rintro later (rfl | rfl) <;> omega
      · rintro later rfl
        omega
      · exact ⟨fun _ h => absurd h id, List.Pairwise.nil⟩
    have hin := hother.near
    rw [hsplit] at hsorted hin
    rcases List.mem_append.mp hin with hearly | hlate
    · have hnot := hbefore other hearly
      simp [hother.code] at hnot
    · rcases List.mem_cons.mp hlate with rfl | hafter
      · exact Int.le_refl _
      · have htail := (List.pairwise_append.mp hsorted).2.1
        exact Int.le_of_lt ((List.pairwise_cons.mp htail).1 other hafter)
  · rw [if_neg hdigits] at h
    cases h

theorem matched_none (hsix : SixDigitCodes srv) {secret code : String}
    (h : matched_step srv secret code env.now = none) :
    ∀ step, ¬ Shown srv env secret code step := by
  intro step hshown
  have hdigits : is_digit_str srv (cleaned code) = true := by
    rw [← hshown.code]
    exact hsix.is_digit_str secret step
  unfold matched_step at h
  rw [if_pos hdigits, List.find?_eq_none] at h
  exact h step hshown.near (beq_iff_eq.mpr hshown.code)

/-! ### The guarantee -/

/-- No spent step of the window shows the code, and something unspent stands for it. -/
def Acceptable (srv : Server Token) (env : Env) (db : Database) (account : UserAccount)
    (m : UserMfa) (secret code : String) : Prop :=
  (∀ step, Shown srv env secret code step → ¬ Spent m step) ∧
    ((∃ step, Shown srv env secret code step ∧ ¬ Spent m step) ∨
      ∃ c, UnusedCode srv db account code c)

/-- What an accepted code has used up, the rest of the rows being as they were. -/
inductive Consumes (srv : Server Token) (env : Env) (db : Database) (account : UserAccount)
    (m : UserMfa) (secret code : String) : Database → Prop where
  | step (step : Int) (shown : Shown srv env secret code step) (unspent : ¬ Spent m step) :
      Consumes srv env db account m secret code
        (schema.effect (.update .user_mfa m.id (.consume step)) db)
  | recovery (c : RecoveryCode) (unused : UnusedCode srv db account code c)
      (unshown : ∀ step, ¬ Shown srv env secret code step) :
      Consumes srv env db account m secret code
        (schema.effect (.update .recovery_code c.id (.use env.now)) db)

/-- The check accepts exactly the acceptable codes, uses up what it accepted, and leaves
    everything as it was when it refuses. -/
structure CheckExact (srv : Server Token) (env : Env) (s : Session) (account : UserAccount)
    (m : UserMfa) (secret code : String) (r : Except Exc Unit) (s' : Session) : Prop where
  accepts : r = .ok () ↔ Acceptable srv env s.db account m secret code
  consumes : r = .ok () → Consumes srv env s.db account m secret code s'.db
  refuses : ∀ e, r = .error e → e = .invalid_mfa_code ∧ s' = s

/-- **Acceptance is exact**, behind the guard against replay. -/
theorem code_accepted_exactly (hsix : SixDigitCodes srv) (hc : schema.Consistent s.db)
    (hf : schema.Fitting s.db) (hup : true ∉ s.faults) {m : UserMfa} {secret code : String}
    (henrolled : Enrolled srv s.db account true m secret) (hascii : is_ascii code = true) :
    CheckExact srv env s account m secret code
      ((verify_code_for_login srv env account code).exec (perform schema run_ext) s).1
      ((verify_code_for_login srv env account code).exec (perform schema run_ext) s).2 := by
  suffices hcheck : wps (verify_code_for_login srv env account code)
      (CheckExact srv env s account m secret code) s from wp_exec hcheck rfl
  have hrefused : ¬ Acceptable srv env s.db account m secret code →
      CheckExact srv env s account m secret code (.error .invalid_mfa_code) s := by
    intro hnot
    refine ⟨⟨fun h => (by cases h), fun h => absurd h hnot⟩, fun h => (by cases h), ?_⟩
    intro e he
    cases he
    exact ⟨rfl, rfl⟩
  refine wps_verify_code_exact hsix.ascii hc hf hup (fun hnone e _ => ?_)
    (fun _ _ _ hodd => ?_) (fun m' secret' step h _ hmatched hspent => ?_)
    (fun m' secret' step h _ hmatched hlater => ?_) (fun m' secret' h _ hmatched hnone => ?_)
    (fun m' secret' c h _ hmatched hunused => ?_)
  · exact absurd henrolled (hnone m secret)
  · rw [ascii_not_odd hascii] at hodd
    cases hodd
  all_goals
    obtain ⟨rfl, rfl⟩ := h.unique hc henrolled
  · -- the earliest step that shows the code is spent
    refine hrefused fun hacceptable => ?_
    exact hacceptable.1 step (matched_earliest hmatched).1 hspent
  · obtain ⟨hshown, hearliest⟩ := matched_earliest hmatched
    have hunspent := not_spent.mpr hlater
    refine ⟨⟨fun _ => ⟨fun other hother => ?_, .inl ⟨step, hshown, hunspent⟩⟩, fun _ => rfl⟩,
      fun _ => .step step hshown hunspent, fun e he => by cases he⟩
    rw [not_spent]
    intro last hlast
    have hlt := hlater last hlast
    have hle := hearliest other hother
    omega
  · -- no step of the window shows it, and it is no unused recovery code
    refine hrefused fun hacceptable => ?_
    rcases hacceptable.2 with ⟨step, hshown, _⟩ | ⟨c, hunused⟩
    · exact matched_none hsix hmatched step hshown
    · exact hnone c hunused
  · have hunshown := matched_none hsix hmatched
    exact ⟨⟨fun _ => ⟨fun step hshown => absurd hshown (hunshown step), .inr ⟨c, hunused⟩⟩,
      fun _ => rfl⟩, fun _ => .recovery c hunused hunshown, fun e he => by cases he⟩

/-! ### One code for every step -/

/-- An authenticator that happens to show the same six digits at every step. -/
def still_server : Server Payload := { Sample.server with totp_at := fun _ _ => "123456" }

theorem still_six_digits : SixDigitCodes still_server where
  length := fun _ _ => by
    show "123456".length = 6
    decide
  digits := fun _ _ => by
    show ∀ c ∈ "123456".toList, c.isDigit = true
    simp
  is_digit := fun _ h => h

def enrolled_account : UserAccount := ⟨1#128, "a@x.org", none, true, none⟩

/-- Its second factor, with the step that was used last. -/
def enrolment_after (last : Option Int) : UserMfa := ⟨2#128, 1#128, "secret", some 0, last⟩

def enrolled_rows (last : Option Int) : Database
  | .user_account => [enrolled_account]
  | .user_mfa => [enrolment_after last]
  | _ => []

theorem still_enrolled (last : Option Int) :
    Enrolled still_server (enrolled_rows last) enrolled_account true (enrolment_after last)
      "secret" where
  mem := List.mem_singleton_self _
  owner := rfl
  state := rfl
  secret := rfl

/-- Nothing has been used: the code is accepted, and its earliest step consumed. -/
theorem first_code_consumed :
    CheckExact still_server (Sample.env 1 (100 * second)) (Sample.session (enrolled_rows none))
      enrolled_account (enrolment_after none) "secret" "123 456"
      ((verify_code_for_login still_server (Sample.env 1 (100 * second)) enrolled_account
        "123 456").exec (perform schema run_ext) (Sample.session (enrolled_rows none))).1
      ((verify_code_for_login still_server (Sample.env 1 (100 * second)) enrolled_account
        "123 456").exec (perform schema run_ext) (Sample.session (enrolled_rows none))).2 := by
  have hsound := @Sample.sound_of_admissible (enrolled_rows none) (by decide +kernel)
  exact code_accepted_exactly still_six_digits hsound.1 hsound.2 List.not_mem_nil
    (still_enrolled none) (by decide)

/-- The step before the present one has been used. The present one shows the same code, and
    the code is refused. -/
theorem same_digits_refused :
    is_ascii "123456" = true ∧
    schema.Consistent (enrolled_rows (some 2)) ∧ schema.Fitting (enrolled_rows (some 2)) ∧
    Enrolled still_server (enrolled_rows (some 2)) enrolled_account true
      (enrolment_after (some 2)) "secret" ∧
    ¬ (((verify_code_for_login still_server (Sample.env 1 (100 * second)) enrolled_account
          "123456").exec (perform schema run_ext)
            (Sample.session (enrolled_rows (some 2)))).1 = .ok () ↔
        (∃ step, Shown still_server (Sample.env 1 (100 * second)) "secret" "123456" step ∧
          ¬ Spent (enrolment_after (some 2)) step) ∨
        ∃ c, UnusedCode still_server (enrolled_rows (some 2)) enrolled_account "123456" c) := by
  have hsound := @Sample.sound_of_admissible (enrolled_rows (some 2)) (by decide +kernel)
  refine ⟨by decide, hsound.1, hsound.2, still_enrolled _, ?_⟩
  intro hexact
  have hunspent : ¬ Spent (enrolment_after (some 2)) 3 := by
    rintro ⟨last, hlast, hle⟩
    cases hlast
    omega
  have haccepted := hexact.mpr (.inl ⟨3, ⟨by decide, by decide⟩, hunspent⟩)
  revert haccepted
  decide +kernel

end CounselReady
