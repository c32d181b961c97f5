import CounselReady.Guarantees.ErasedBytes
import CounselReady.Specs.CodeCheck

/-! # Malformed Codes

    Whatever string is sent as a code, the three code routes are to answer
    success, 401, 409 or 503. They do, but for one kind of string: digits that
    are not ASCII pass the filter in front of a comparison that cannot take them.
-/

namespace CounselReady

open Relational Framework Handler Prog

variable {Token : Type} {srv : Server Token} {env : Env} {s : Session} {account : UserAccount}

/-! ### The requests and their answers -/

/-- The request sends the code, and its other fields are within their bounds. -/
inductive CarriesCode (srv : Server Token) (code : String) : Request Token → Prop where
  | confirm (credentials : Option Token) : CarriesCode srv code ⟨credentials, .mfa_confirm code⟩
  | verify (credentials : Option Token) (challenge_token : Token)
      (length : srv.token_length challenge_token ≤ 2048) :
      CarriesCode srv code ⟨credentials, .mfa_verify challenge_token code⟩
  | disable (credentials : Option Token) (password : String)
      (length : password.length ≤ max_password_length) :
      CarriesCode srv code ⟨credentials, .mfa_disable password code⟩

/-- Success, or one of the answers the routes declare. -/
def Clean (response : Response Token) : Prop :=
  response.succeeded = true ∨ ∃ e, response = .refused e ∧ e.status ∈ [401, 409, 503]

/-- The request gets as far as the comparison of its code. -/
inductive Compared (srv : Server Token) (env : Env) (db : Database) : Request Token → Prop where
  | confirm (credentials : Option Token) (code : String) (auth : Authenticated) (m : UserMfa)
      (secret : String) (signed_in : SignedIn srv env credentials db auth)
      (pending : Enrolled srv db auth.account false m secret) :
      Compared srv env db ⟨credentials, .mfa_confirm code⟩
  | verify (credentials : Option Token) (challenge_token : Token) (code : String)
      (account : UserAccount) (m : UserMfa) (secret : String)
      (challenge : decode_mfa_challenge srv challenge_token env.now = some account.id)
      (holder : account ∈ db .user_account) (active : account.active = true)
      (enrolled : Enrolled srv db account true m secret) :
      Compared srv env db ⟨credentials, .mfa_verify challenge_token code⟩
  | disable (credentials : Option Token) (password code : String) (auth : Authenticated)
      (m : UserMfa) (secret : String) (signed_in : SignedIn srv env credentials db auth)
      (password_right : verify_password_against srv password auth.account.password_hash = true)
      (enrolled : Enrolled srv db auth.account true m secret) :
      Compared srv env db ⟨credentials, .mfa_disable password code⟩

theorem clean_error {route : Route Token} {status : Nat} {detail : Detail}
    {headers : List (String × String)} (h : status ∈ [401, 409, 503]) :
    Clean (answer route (.error (.http ⟨status, detail, headers⟩))) :=
  .inr ⟨⟨status, detail, headers⟩, rfl, h⟩

theorem clean_invalid_code (route : Route Token) : Clean (answer route (.error invalid_code)) :=
  clean_error (by decide)

theorem not_clean_type_error (route : Route Token) :
    ¬ Clean (answer route (.error .type_error)) := by
  rintro (h | ⟨e, he, _⟩)
  · cases h
  · cases he

/-! ### After an accepted code -/

/-- The rows once a code has been used up: the keys are the same, and so is who has an
    account, a session and a second factor. -/
structure CodeTaken (account : UserAccount) (db db' : Database) : Prop where
  consistent : schema.Consistent db'
  fitting : schema.Fitting db'
  keys : ∀ t, ∀ r ∈ db' t, ∃ r₀ ∈ db t, row_pk t r = row_pk t r₀
  accounts : db' .user_account = db .user_account
  sessions : db' .user_session = db .user_session
  enrolment : ∃ m ∈ db' .user_mfa, UserMfa.user_id m = account.id ∧ m.is_active = true

theorem code_taken {db : Database} {t : Table} {id : Uuid} {patch : Patch t}
    (hc : schema.Consistent db) (hf : schema.Fitting db)
    (hcheck : schema.check db (.update t id patch) = none) (hacc : t ≠ .user_account)
    (hsess : t ≠ .user_session)
    (henrolled : ∃ m ∈ schema.effect (.update t id patch) db .user_mfa,
      UserMfa.user_id m = account.id ∧ m.is_active = true) :
    CodeTaken account db (schema.effect (.update t id patch) db) where
  consistent := Schema.consistent_update schema_regular hc hcheck
  fitting := Schema.Fitting.update hf hc hcheck
  keys := by
    intro t' r hr
    rcases Schema.pk_effect_resolve (w := .update t id patch) hr with hold | hinsert
    · exact hold
    · cases hinsert
  accounts := Schema.effect_update_ne _ _ _ hacc
  sessions := Schema.effect_update_ne _ _ _ hsess
  enrolment := henrolled

theorem code_taken_step {db : Database} (hc : schema.Consistent db) (hf : schema.Fitting db)
    {m : UserMfa} {secret : String} (h : Enrolled srv db account true m secret) (step : Int) :
    CodeTaken account db (schema.effect (.update .user_mfa m.id (.consume step)) db) := by
  refine code_taken hc hf (check_consume hc hf h.mem step) (by decide) (by decide) ?_
  have hrow : schema.patched .user_mfa m.id (.consume step) m =
      { m with last_used_counter := some step } := Schema.patched_of_eq rfl
  exact ⟨{ m with last_used_counter := some step },
    Schema.mem_effect_update.mpr ⟨m, h.mem, hrow⟩, h.owner, h.state⟩

theorem code_taken_recovery {db : Database} (hc : schema.Consistent db) (hf : schema.Fitting db)
    {m : UserMfa} {secret code : String} {c : RecoveryCode}
    (h : Enrolled srv db account true m secret) (hunused : UnusedCode srv db account code c)
    (now : Nat) :
    CodeTaken account db (schema.effect (.update .recovery_code c.id (.use now)) db) := by
  refine code_taken hc hf (check_use hc hf hunused.mem now) (by decide) (by decide) ?_
  rw [Schema.effect_update_ne _ _ _ (by decide)]
  exact ⟨m, h.mem, h.owner, h.state⟩

/-! ### The steps behind the gate -/

/-- The check of an active enrolment: only odd digits make it raise anything else. -/
theorem wps_verify_code_clean (htotp : AsciiCodes srv) {code : String}
    {Q : Except Exc Unit → Session → Prop} (hc : schema.Consistent s.db)
    (hf : schema.Fitting s.db) (hup : true ∉ s.faults)
    (hrefused : ∀ e, NotComparable e ∨ e = .invalid_mfa_code →
      ¬ ((∃ m secret, Enrolled srv s.db account true m secret) ∧ odd_digits srv code = true) →
      Q (.error e) s)
    (hodd : ∀ m secret, Enrolled srv s.db account true m secret → odd_digits srv code = true →
      Q (.error .type_error) s)
    (hok : ∀ s', odd_digits srv code = false → CodeTaken account s.db s'.db → true ∉ s'.faults →
      Q (.ok ()) s') :
    wps (verify_code_for_login srv env account code) Q s := by
  have hplain : odd_digits srv code = false →
      ¬ ((∃ m secret, Enrolled srv s.db account true m secret) ∧ odd_digits srv code = true) := by
    rintro hplain ⟨_, hodd⟩
    rw [hplain] at hodd
    cases hodd
  refine wps_verify_code_exact htotp hc hf hup (fun hnone e he => ?_) hodd
    (fun _ _ _ _ hplain' _ _ => hrefused _ (.inr rfl) (hplain hplain'))
    (fun m secret step h hplain' _ _ => ?_)
    (fun _ _ _ hplain' _ _ => hrefused _ (.inr rfl) (hplain hplain'))
    (fun m secret c h hplain' _ hunused => ?_)
  · refine hrefused e (.inl he) ?_
    rintro ⟨⟨m, secret, h⟩, _⟩
    exact hnone m secret h
  · exact hok _ hplain' (code_taken_step hc hf h step) (up_tail hup)
  · exact hok _ hplain' (code_taken_recovery hc hf h hunused env.now) (up_tail hup)

/-- Switching an active second factor off goes through. -/
theorem wps_disable_mfa_admitted {Q : Except Exc Unit → Session → Prop}
    (hc : schema.Consistent s.db) (hup : true ∉ s.faults)
    (henrolled : ∃ m ∈ s.db .user_mfa, UserMfa.user_id m = account.id ∧ m.is_active = true)
    (h : ∀ s', Q (.ok ()) s') : wps (disable_mfa account) Q s := by
  obtain ⟨m, hm, howner, hactive⟩ := henrolled
  refine wps_select_unique_bind (one_enrolment hc account.id) (fun hnone => ?_) fun r hr hp _ => ?_
  · have hother := hnone m hm
    simp [howner] at hother
  have hclash : schema.clash .user_mfa r m = true :=
    beq_iff_eq.mpr ((beq_iff_eq.mp hp).trans howner.symm)
  obtain rfl : r = m := hc.eq_of_clash schema_regular hr hm hclash
  refine wps_some_or_bind (fun h => by cases h) fun record hrecord => ?_
  cases hrecord
  refine wps_require_bind (fun hinactive => ?_) fun _ => ?_
  · rw [hactive] at hinactive
    cases hinactive
  refine wps_execute_admitted_bind hup rfl (wps_select_bind ?_)
  exact wps_delete_all_admitted (up_tail hup) fun s' _ => h s'

/-- The enrolment that is waiting for its first code. -/
theorem wps_confirm_enrolment_clean (htotp : AsciiCodes srv) {code : String}
    {Q : Except Exc Unit → Session → Prop} (hc : schema.Consistent s.db)
    (hf : schema.Fitting s.db) (hup : true ∉ s.faults)
    (hrefused : ∀ e, NotComparable e ∨ e = .invalid_mfa_code ∨ e = .mfa_already_enrolled →
      ¬ ((∃ m secret, Enrolled srv s.db account false m secret) ∧ odd_digits srv code = true) →
      Q (.error e) s)
    (hodd : ∀ m secret, Enrolled srv s.db account false m secret → odd_digits srv code = true →
      Q (.error .type_error) s)
    (hok : ∀ s', odd_digits srv code = false → Q (.ok ()) s') :
    wps (confirm_enrolment srv env account code) Q s := by
  have hplain : odd_digits srv code = false →
      ¬ ((∃ m secret, Enrolled srv s.db account false m secret) ∧ odd_digits srv code = true) := by
    rintro hplain ⟨_, hodd⟩
    rw [hplain] at hodd
    cases hodd
  refine wps_select_unique_bind (one_enrolment hc account.id) (fun hnone => ?_) fun m hm hid _ => ?_
  · refine wps_some_or_bind (fun _ => hrefused _ (.inl (.inl rfl)) ?_) (fun _ h => by cases h)
    rintro ⟨⟨m, secret, h⟩, _⟩
    have hother := hnone m h.mem
    simp [h.owner] at hother
  refine wps_some_or_bind (fun h => by cases h) fun record hrecord => ?_
  cases hrecord
  have howner : UserMfa.user_id m = account.id := beq_iff_eq.mp hid
  -- an account has one enrolment, so the one that could be compared is the one found
  have hthis : ∀ m' secret, Enrolled srv s.db account false m' secret → m' = m := by
    intro m' secret h
    have hclash : schema.clash .user_mfa m' m = true := beq_iff_eq.mpr (h.owner.trans howner.symm)
    exact hc.eq_of_clash schema_regular h.mem hm hclash
  refine wps_require_bind (fun hactive => hrefused _ (.inr (.inr rfl)) ?_) fun hpending => ?_
  · rintro ⟨⟨m', secret, h⟩, _⟩
    have hstate := h.state
    rw [hthis m' secret h] at hstate
    simp [hstate] at hactive
  have hstate : UserMfa.is_active m = false := by simpa using hpending
  refine wps_decrypt_secret_exact (fun hnone e he => hrefused e (.inl (.inr he)) ?_)
    fun secret hsecret => ?_
  · rintro ⟨⟨m', secret, h⟩, _⟩
    have hdecrypts := h.secret
    rw [hthis m' secret h, hnone] at hdecrypts
    cases hdecrypts
  cases hdigits : odd_digits srv code with
  | true =>
    rw [matching_counter_odd secret hdigits]
    exact (wp_raise _).mpr (hodd m secret ⟨hm, howner, hstate, hsecret⟩ hdigits)
  | false =>
    rw [matching_counter_eq htotp secret hdigits]
    refine wps_bind ((wp_pure _).mpr (wps_some_or_bind
      (fun _ => hrefused _ (.inr (.inl rfl)) (hplain hdigits)) fun step _ => ?_))
    refine wps_execute_admitted hup ?_ (hok _ hdigits)
    have heq : schema.check s.db (.update .user_mfa m.id (.confirm env.now step)) =
        schema.fits .user_mfa (schema.apply .user_mfa (.confirm env.now step) m) :=
      Schema.check_update_eq schema_regular hc hm (fun _ => rfl)
    rw [heq]
    exact hf .user_mfa m hm

/-! ### The routes -/

theorem clean_iff {response : Response Token} {C : Prop} (h : Clean response) (hnot : ¬ C) :
    Clean response ↔ ¬ C := ⟨fun _ => hnot, fun _ => h⟩

theorem not_clean_iff {response : Response Token} {C : Prop} (h : ¬ Clean response) (hC : C) :
    Clean response ↔ ¬ C := ⟨fun hclean => absurd hclean h, fun hnot => absurd hC hnot⟩

section routes
variable {w : Committed} {credentials : Option Token} {code : String}

theorem serve_confirm_clean (htotp : AsciiCodes srv) (hc : schema.Consistent w.db)
    (hf : schema.Fitting w.db) (hup : true ∉ env.faults) (hcommits : env.commits = true)
    (hcode : code_admitted code = true) :
    Clean (serve srv env ⟨credentials, .mfa_confirm code⟩ w).1 ↔
      ¬ (Compared srv env w.db ⟨credentials, .mfa_confirm code⟩ ∧
        odd_digits srv code = true) := by
  let P : Response Token → Committed → Prop := fun response _ => Clean response ↔
    ¬ (Compared srv env w.db ⟨credentials, .mfa_confirm code⟩ ∧ odd_digits srv code = true)
  suffices hP : P (serve srv env ⟨credentials, .mfa_confirm code⟩ w).1
    (serve srv env ⟨credentials, .mfa_confirm code⟩ w).2 from hP
  refine serve_wps (wps_current_user_exact hc (fun hnone => ?_) fun auth hauth => ?_)
  · refine clean_iff (clean_error (by decide)) ?_
    rintro ⟨hcompared, _⟩
    cases hcompared with
    | confirm _ _ auth _ _ signed_in _ => exact hnone auth signed_in
  -- whoever sends this request is this account
  have hof : Compared srv env w.db ⟨credentials, .mfa_confirm code⟩ →
      ∃ m secret, Enrolled srv w.db auth.account false m secret := by
    intro hcompared
    cases hcompared with
    | confirm _ _ auth' m secret signed_in pending =>
      rw [signed_in.unique hc hauth] at pending
      exact ⟨m, secret, pending⟩
  refine wps_require_bind (fun hshort => ?_) fun _ => ?_
  · rw [hcode] at hshort
    cases hshort
  refine wps_bind ((wp_rethrow _ _).mpr (wps_confirm_enrolment_clean htotp hc hf hup
    (fun e he hnot => ?_) (fun m secret h hodd => ?_) fun s' hplain => ?_))
  · refine clean_iff ?_ fun h => hnot ⟨hof h.1, h.2⟩
    rcases he with (rfl | rfl | rfl) | rfl | rfl <;> exact clean_error (by decide)
  · exact not_clean_iff (not_clean_type_error _) ⟨.confirm _ _ auth m secret hauth h, hodd⟩
  · refine (wp_pure _).mpr ⟨fun _ => clean_iff (.inl rfl) fun h => ?_, fun hfailed => ?_⟩
    · rw [hplain] at h
      exact absurd h.2 Bool.false_ne_true
    · rw [hcommits] at hfailed
      cases hfailed

theorem verify_answer_clean {route : Route Token} {e : Exc}
    (he : NotComparable e ∨ e = .invalid_mfa_code) :
    Clean (answer route (.error (verify_answer e))) := by
  rcases he with (rfl | rfl | rfl) | rfl <;> exact clean_error (by decide)

theorem disable_answer_clean {route : Route Token} {e : Exc}
    (he : NotComparable e ∨ e = .invalid_mfa_code) :
    Clean (answer route (.error (disable_answer e))) := by
  rcases he with (rfl | rfl | rfl) | rfl <;> exact clean_error (by decide)

theorem serve_verify_clean (htotp : AsciiCodes srv) (hsha : Sha256 srv) {challenge_token : Token}
    (hc : schema.Consistent w.db) (hf : schema.Fitting w.db) (hup : true ∉ env.faults)
    (hcommits : env.commits = true)
    (hids : ∀ t, ∀ r ∈ w.db t, ∀ i, row_pk t r ≠ env.uuid i)
    (hdigest : ∀ us ∈ w.db .user_session,
      UserSession.refresh_digest us ≠ hash_refresh_token srv env.refresh_token)
    (hcode : code_admitted code = true) (htoken : srv.token_length challenge_token ≤ 2048) :
    Clean (serve srv env ⟨credentials, .mfa_verify challenge_token code⟩ w).1 ↔
      ¬ (Compared srv env w.db ⟨credentials, .mfa_verify challenge_token code⟩ ∧
        odd_digits srv code = true) := by
  let P : Response Token → Committed → Prop := fun response _ => Clean response ↔
    ¬ (Compared srv env w.db ⟨credentials, .mfa_verify challenge_token code⟩ ∧
      odd_digits srv code = true)
  suffices hP : P (serve srv env ⟨credentials, .mfa_verify challenge_token code⟩ w).1
    (serve srv env ⟨credentials, .mfa_verify challenge_token code⟩ w).2 from hP
  refine serve_wps (wps_require_bind (fun hshort => ?_) fun _ => ?_)
  · rw [hcode] at hshort
    cases hshort
  refine wps_require_bind (fun hlong => ?_) fun _ => ?_
  · simp [htoken] at hlong
  refine wps_some_or_bind (fun hnone => ?_) fun user_id huser => ?_
  · refine clean_iff (clean_invalid_code _) ?_
    rintro ⟨hcompared, _⟩
    cases hcompared with
    | verify _ _ _ account m secret challenge holder active enrolled =>
      rw [hnone] at challenge
      cases challenge
  -- the account a comparison is made for is the one the challenge names
  have hchallenge : Compared srv env w.db ⟨credentials, .mfa_verify challenge_token code⟩ →
      ∃ account ∈ w.db .user_account, UserAccount.id account = user_id ∧ account.active = true ∧
        ∃ m secret, Enrolled srv w.db account true m secret := by
    intro hcompared
    cases hcompared with
    | verify _ _ _ account m secret challenge holder active enrolled =>
      rw [huser] at challenge
      exact ⟨account, holder, (Option.some.inj challenge).symm, active, m, secret, enrolled⟩
  refine wps_select_unique_bind (account_by_id hc user_id) (fun hnone => ?_)
    fun account hacc hid _ => ?_
  · refine wps_some_or_bind (fun _ => ?_) (fun _ h => by cases h)
    refine clean_iff (clean_invalid_code _) fun h => ?_
    obtain ⟨account, holder, hid, _⟩ := hchallenge h.1
    have hother := hnone account holder
    simp [hid] at hother
  refine wps_some_or_bind (fun h => by cases h) fun a ha => ?_
  cases ha
  have hid : UserAccount.id account = user_id := beq_iff_eq.mp hid
  have hof : Compared srv env w.db ⟨credentials, .mfa_verify challenge_token code⟩ →
      account.active = true ∧ ∃ m secret, Enrolled srv w.db account true m secret := by
    intro hcompared
    obtain ⟨account', holder, hid', hrest⟩ := hchallenge hcompared
    have hsame : account' = account := hc.eq_of_pk holder hacc (hid'.trans hid.symm)
    rw [hsame] at hrest
    exact hrest
  refine wps_require_bind (fun hinactive => ?_) fun hactive => ?_
  · refine clean_iff (clean_invalid_code _) fun h => ?_
    rw [(hof h.1).1] at hinactive
    cases hinactive
  refine wps_bind ((wp_rethrow _ _).mpr (wps_verify_code_clean htotp hc hf hup
    (fun e he hnot => ?_) (fun m secret h hodd => ?_) fun s' hplain htaken hup' => ?_))
  · exact clean_iff (verify_answer_clean he) fun h => hnot ⟨(hof h.1).2, h.2⟩
  · refine not_clean_iff (not_clean_type_error _) ⟨?_, hodd⟩
    exact .verify _ _ _ account m secret (huser.trans (congrArg some hid.symm)) hacc hactive h
  · have hacc' : account ∈ s'.db .user_account := by
      rw [htaken.accounts]
      exact hacc
    have hids' : ∀ t, ∀ r ∈ s'.db t, ∀ i, row_pk t r ≠ env.uuid i := by
      intro t r hr i
      obtain ⟨r₀, hr₀, hpk⟩ := htaken.keys t r hr
      rw [hpk]
      exact hids t r₀ hr₀ i
    have hdigest' : ∀ us ∈ s'.db .user_session,
        UserSession.refresh_digest us ≠ hash_refresh_token srv env.refresh_token := by
      rw [htaken.sessions]
      exact hdigest
    refine wps_bind (wps_complete_login_admitted htaken.fitting hup' hacc' hids'
      (Nat.le_of_eq (hsha _)) hdigest' fun issued s'' => ?_)
    refine (wp_pure _).mpr ⟨fun _ => clean_iff (.inl rfl) fun h => ?_, fun hfailed => ?_⟩
    · rw [hplain] at h
      exact absurd h.2 Bool.false_ne_true
    · rw [hcommits] at hfailed
      cases hfailed

theorem serve_disable_clean (htotp : AsciiCodes srv) {password : String}
    (hc : schema.Consistent w.db) (hf : schema.Fitting w.db) (hup : true ∉ env.faults)
    (hcommits : env.commits = true) (hcode : code_admitted code = true)
    (hpassword : password.length ≤ max_password_length) :
    Clean (serve srv env ⟨credentials, .mfa_disable password code⟩ w).1 ↔
      ¬ (Compared srv env w.db ⟨credentials, .mfa_disable password code⟩ ∧
        odd_digits srv code = true) := by
  let P : Response Token → Committed → Prop := fun response _ => Clean response ↔
    ¬ (Compared srv env w.db ⟨credentials, .mfa_disable password code⟩ ∧
      odd_digits srv code = true)
  suffices hP : P (serve srv env ⟨credentials, .mfa_disable password code⟩ w).1
    (serve srv env ⟨credentials, .mfa_disable password code⟩ w).2 from hP
  refine serve_wps (wps_current_user_exact hc (fun hnone => ?_) fun auth hauth => ?_)
  · refine clean_iff (clean_error (by decide)) ?_
    rintro ⟨hcompared, _⟩
    cases hcompared with
    | disable _ _ _ auth _ _ signed_in _ _ => exact hnone auth signed_in
  -- a code is compared only once the password was right and an enrolment active
  have hof : Compared srv env w.db ⟨credentials, .mfa_disable password code⟩ →
      verify_password_against srv password auth.account.password_hash = true ∧
        ∃ m secret, Enrolled srv w.db auth.account true m secret := by
    intro hcompared
    cases hcompared with
    | disable _ _ _ auth' m secret signed_in password_right enrolled =>
      rw [signed_in.unique hc hauth] at password_right enrolled
      exact ⟨password_right, m, secret, enrolled⟩
  refine wps_require_bind (fun hshort => ?_) fun _ => ?_
  · rw [hcode] at hshort
    cases hshort
  refine wps_require_bind (fun hlong => ?_) fun _ => ?_
  · simp [length_within, hpassword] at hlong
  refine wps_require_bind (fun hwrong => ?_) fun hright => ?_
  · refine clean_iff (clean_invalid_code _) fun h => ?_
    rw [(hof h.1).1] at hwrong
    cases hwrong
  refine wps_bind ((wp_rethrow _ _).mpr (wps_verify_code_clean htotp hc hf hup
    (fun e he hnot => ?_) (fun m secret h hodd => ?_) fun s' hplain htaken hup' => ?_))
  · exact clean_iff (disable_answer_clean he) fun h => hnot ⟨(hof h.1).2, h.2⟩
  · exact not_clean_iff (not_clean_type_error _)
      ⟨.disable _ _ _ auth m secret hauth hright h, hodd⟩
  · refine wps_bind ((wp_rethrow _ _).mpr (wps_disable_mfa_admitted htaken.consistent hup'
      htaken.enrolment fun s'' => ?_))
    refine (wp_pure _).mpr ⟨fun _ => clean_iff (.inl rfl) fun h => ?_, fun hfailed => ?_⟩
    · rw [hplain] at h
      exact absurd h.2 Bool.false_ne_true
    · rw [hcommits] at hfailed
      cases hfailed

end routes

/-! ### The guarantee -/

/-- **Malformed codes.** The answer is one of the declared ones exactly when the code is
    not compared, or is not a string of digits with one beyond ASCII among them. -/
theorem code_request_clean_iff (htotp : AsciiCodes srv) (hsha : Sha256 srv)
    {C : History Token → Step Token → Prop} {h : History Token}
    (hr : Reaches srv C History.start h) (hfresh : Fresh srv h env) (hup : true ∉ env.faults)
    (hcommits : env.commits = true) {code : String} (hlength : 6 ≤ code.length ∧ code.length ≤ 64)
    {req : Request Token} (hreq : CarriesCode srv code req) :
    Clean (serve srv env req h.world).1 ↔
      ¬ (Compared srv env h.world.db req ∧ odd_digits srv code = true) := by
  have hcode : code_admitted code = true := by
    simp [code_admitted, length_within, hlength]
  cases hreq with
  | confirm credentials => exact serve_confirm_clean htotp hr.consistent hr.fitting hup hcommits hcode
  | verify credentials challenge_token htoken =>
    exact serve_verify_clean htotp hsha hr.consistent hr.fitting hup hcommits
      (hfresh.ids h.world h.world_mem_worlds) (hfresh.session_digests h.world h.world_mem_worlds)
      hcode htoken
  | disable credentials password hpassword =>
    exact serve_disable_clean htotp hr.consistent hr.fitting hup hcommits hcode hpassword

/-! ### Digits of another alphabet -/

theorem Sample.ascii_codes : AsciiCodes Sample.server := by
  intro secret step
  show is_ascii (Nat.repr (100000 + step.toNat % 100000)) = true
  unfold is_ascii
  rw [List.all_eq_true]
  intro c hc
  rw [Nat.toList_repr] at hc
  have hdigit := Nat.isDigit_of_mem_toDigits (by decide) (by decide) hc
  simp only [Char.isDigit, Bool.and_eq_true, decide_eq_true_eq] at hdigit
  have hbound : c.toNat ≤ 57 := hdigit.2
  exact decide_eq_true (by omega)

/-- The first account wants a second factor switched off that it never had. -/
def needless_disable : Request Payload :=
  ⟨Sample.bearer (101 * second), .mfa_disable "correct horse" "123456"⟩

theorem needless_disable_clean :
    Clean (serve Sample.server (Sample.env 5 (104 * second)) needless_disable refused.world).1 := by
  have hreach : Reaches Sample.server (fun _ _ => True) .start refused :=
    .step _ (.step _ (.step _ (.step _ .refl trivial) trivial) trivial) trivial
  have hfresh : Fresh Sample.server refused (Sample.env 5 (104 * second)) :=
    @Sample.fresh_of_unseen refused 5 _ (by decide) rfl rfl (by decide +kernel)
  refine (code_request_clean_iff Sample.ascii_codes Sample.sha256_length hreach hfresh
    List.not_mem_nil rfl (by decide) (.disable _ _ (by decide))).mpr ?_
  rintro ⟨_, hodd⟩
  revert hodd
  decide

namespace Sample

/-- `str.isdigit` knows the Arabic-Indic digits too. Digests tell inputs apart. -/
def arabic_server : Server Payload :=
  { server with
    sha256 := text_of
    is_digit := fun c => c.isDigit || (decide (0x660 ≤ c.toNat) && decide (c.toNat ≤ 0x669)) }

/-- An account registers, signs in and sets up a second factor. -/
def pending : History Payload :=
  ((History.start.next arabic_server
    (.request (Sample.env 1 (100 * second)) ⟨none, .register "a@x.org" "correct horse" none⟩)).next
    arabic_server (.request (Sample.env 2 (101 * second)) ⟨none, .login "a@x.org" "correct horse"⟩)).next
    arabic_server (.request (Sample.env 3 (102 * second)) ⟨Sample.bearer (101 * second), .mfa_setup⟩)

end Sample

/-- Six Arabic-Indic digits for the first code: the comparison raises. -/
theorem arabic_code_unclassified :
    Reaches Sample.arabic_server (fun _ _ => True) .start Sample.pending ∧
    "١٢٣٤٥٦".length = 6 ∧
    CarriesCode Sample.arabic_server "١٢٣٤٥٦"
      ⟨Sample.bearer (101 * second), .mfa_confirm "١٢٣٤٥٦"⟩ ∧
    ¬ Clean (serve Sample.arabic_server (Sample.env 4 (103 * second))
      ⟨Sample.bearer (101 * second), .mfa_confirm "١٢٣٤٥٦"⟩ Sample.pending.world).1 := by
  refine ⟨.step _ (.step _ (.step _ .refl trivial) trivial) trivial, by decide, .confirm _, ?_⟩
  have hanswer : (serve Sample.arabic_server (Sample.env 4 (103 * second))
      ⟨Sample.bearer (101 * second), .mfa_confirm "١٢٣٤٥٦"⟩ Sample.pending.world).1 =
        .internal_server_error := by
    decide +kernel
  rw [hanswer]
  exact not_clean_type_error (.mfa_confirm "١٢٣٤٥٦")

end CounselReady
