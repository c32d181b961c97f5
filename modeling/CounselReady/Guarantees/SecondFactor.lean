import CounselReady.Specs.Enrolment
import CounselReady.Specs.SignIn
import CounselReady.Sample

/-! # No Session Without a Second Factor

    Once an account has a confirmed second factor, a session is created for it
    in two ways only: with a challenge and a code, or with a passkey.

    * The routes that issue a session are three, and login is not one of them
      for such an account (`new_session_verified`).
    * A challenge that verifies was signed by a login of the run whose password
      was right (`Reaches.challenges_from_logins`).
    * A confirmed enrolment always has a counter, so a code that is accepted is
      for a later step (`Reaches.confirmed_counted`).
-/

namespace CounselReady

open Relational Framework Prog

variable {Token : Type} {srv : Server Token}

/-! ### Confirmed enrolments have a counter -/

def ConfirmedCounted (db : Database) : Prop :=
  ∀ m ∈ db .user_mfa, UserMfa.is_active m = true → m.last_used_counter.isSome = true

/-- What one step of the second factor of an account keeps. -/
theorem FactorStep.counted {f f' : Factor} {e : FactorEvent} (h : FactorStep f e f')
    (hf : ∀ m ∈ f.enrolment, m.is_active = true → m.last_used_counter.isSome = true) :
    ∀ m ∈ f'.enrolment, m.is_active = true → m.last_used_counter.isSome = true := by
  intro m' hm' hactive
  cases h with
  | stay => exact hf m' hm' hactive
  | set_up _ m codes unconfirmed pending ten hunused =>
    obtain rfl := List.mem_singleton.mp hm'
    rw [UserMfa.is_active, pending] at hactive
    cases hactive
  | confirm m codes now step unconfirmed =>
    obtain rfl := List.mem_singleton.mp hm'
    rfl
  | count m codes step active =>
    obtain rfl := List.mem_singleton.mp hm'
    rfl
  | use m before after c now active hunused => exact hf m' hm' hactive
  | drop => cases hm'
  | drop_by_code => cases hm'

theorem ConfirmedCounted.step {h : History Token} {s : Step Token}
    (hc : schema.Consistent h.world.db) (hw : ConfirmedCounted h.world.db) :
    ConfirmedCounted (h.next srv s).world.db := by
  intro m hm
  have hown : ∀ m' ∈ (factor h.world.db (UserMfa.user_id m)).enrolment, m'.is_active = true →
      m'.last_used_counter.isSome = true := fun m' hm' => hw m' (mem_enrolments.mp hm').1
  exact (factor_step s hc (UserMfa.user_id m)).counted hown m (mem_enrolments.mpr ⟨hm, rfl⟩)

/-- **Counters.** In every run, a confirmed second factor has counted a code. -/
theorem Reaches.confirmed_counted {C : History Token → Step Token → Prop} {h : History Token}
    (hr : Reaches srv C History.start h) : ConfirmedCounted h.world.db := by
  induction hr with
  | refl =>
    intro m hm
    cases hm
  | step s hr _ ih => exact ih.step hr.consistent

/-! ### Challenges come from logins -/

/-- A login of the run verified the account's password and signed these claims. -/
def IssuedByLogin (srv : Server Token) (h : History Token) (p : Payload) : Prop :=
  ∃ x ∈ h.past, ∃ env credentials email password account,
    x.1 = .request env ⟨credentials, .login email password⟩ ∧
      PasswordVerified srv x.2.db email password account ∧ p = challenge_claims account.id env.now

def ChallengesFromLogins (srv : Server Token) (h : History Token) : Prop :=
  ∀ p ∈ h.world.ext.signed, p.typ = .mfa_challenge → IssuedByLogin srv h p

/-- What a login signs once the password has been verified. -/
def signs_for (env : Env) (account : UserAccount) : Op Row Patch Uuid Ext → Prop
  | .ext (.sign p) => p.typ = .mfa_challenge → p = challenge_claims account.id env.now
  | _ => True

theorem confined_accept_password_signs {env : Env} {email password : String} {account : UserAccount} :
    Confined (signs_for env account) (accept_password srv env email password account) := by
  refine confined_bind ?_ fun _ => ?_
  · unfold rehash
    split
    · refine confined_bind ?_ fun _ => confined_update trivial
      unfold hash_password
      split <;> simp
    · simp
  refine confined_bind (confined_bind (confined_select_one trivial) fun _ => every_pure _)
    fun active => ?_
  cases active with
  | true => exact confined_bind (confined_sign fun _ => rfl) fun _ => every_pure _
  | false =>
    refine confined_bind ?_ fun _ => every_pure _
    refine confined_bind ?_ fun _ => confined_bind (confined_insert trivial) fun _ => every_pure _
    refine confined_bind (confined_insert trivial) fun _ => ?_
    refine confined_bind (confined_sign fun htyp => ?_) fun _ => every_pure _
    cases htyp

/-- **Step for logins.** A login signs no challenge but one for the account whose password it
    has verified. -/
theorem serve_login_signed {env : Env} {credentials : Option Token} {email password : String}
    {w : Committed} :
    ∀ p ∈ (serve srv env ⟨credentials, .login email password⟩ w).2.ext.signed,
      p.typ = .mfa_challenge → p ∈ w.ext.signed ∨ ∃ account,
        PasswordVerified srv w.db email password account ∧
          p = challenge_claims account.id env.now := by
  let P : Outside → Prop := fun o => ∀ p ∈ o.signed, p.typ = .mfa_challenge →
    p ∈ w.ext.signed ∨ ∃ account, PasswordVerified srv w.db email password account ∧
      p = challenge_claims account.id env.now
  have h0 : P (w.begin env).ext := fun p hp _ => .inl hp
  refine @serve_wps Token srv env ⟨credentials, .login email password⟩ w
    (fun _ w' => P w'.ext) ?_
  refine wps_some_or_bind (fun _ => h0) fun m hm => ?_
  refine wps_require_bind (fun _ => h0) fun _ => ?_
  refine wps_bind ((wp_rethrow _ _).mpr (wps_authenticate ?_ ?_))
  · intro e s' hext
    change P s'.ext
    rw [hext]
    exact h0
  · intro account hacc hmail hpassword hactive
    -- only `sign` adds a token, and it is for this account
    have hI : ∀ o (st : Session), signs_for env account o → P st.ext →
        P (perform schema run_ext o st).2.ext := by
      intro o st ho hst p hp htyp
      rcases perform_ext_state schema run_ext o st with heq | ⟨e, rfl, heq⟩
      · rw [heq] at hp
        exact hst p hp htyp
      · rw [heq] at hp
        cases e with
        | put key data => exact hst p hp htyp
        | get key => exact hst p hp htyp
        | remove key => exact hst p hp htyp
        | sign q =>
          rcases List.mem_append.mp hp with hold | hnew
          · exact hst p hold htyp
          · obtain rfl := List.mem_singleton.mp hnew
            exact .inr ⟨account, ⟨hacc, ⟨m, hm, hmail⟩, hpassword, hactive⟩, ho htyp⟩
    have haccept : wps (accept_password srv env (normalize_email srv m) password account)
        (fun _ (s' : Session) => P s'.ext) (w.begin env) :=
      wps_confined confined_accept_password_signs hI h0
    refine wps_mono haccept fun r s' hs' => ?_
    cases r with
    | error e => exact hs'
    | ok signed_in => exact (wp_pure _).mpr ⟨fun _ => hs', fun _ => hs'⟩

theorem ChallengesFromLogins.step {h : History Token} {s : Step Token}
    (hh : ChallengesFromLogins srv h) : ChallengesFromLogins srv (h.next srv s) := by
  have hkeep : ∀ p, IssuedByLogin srv h p → IssuedByLogin srv (h.next srv s) p := by
    intro p hp
    obtain ⟨x, hx, hrest⟩ := hp
    exact ⟨x, List.mem_cons_of_mem _ hx, hrest⟩
  intro p hp htyp
  by_cases hlogin : ∃ env credentials email password,
      s = .request env ⟨credentials, .login email password⟩
  · obtain ⟨env, credentials, email, password, rfl⟩ := hlogin
    rcases serve_login_signed p hp htyp with hold | ⟨account, hverified, hclaims⟩
    · exact hkeep p (hh p hold htyp)
    · exact ⟨_, List.mem_cons_self, env, credentials, email, password, account, rfl, hverified,
        hclaims⟩
  · -- the other steps sign no challenge
    let I : Session → Prop := fun st => ∀ p ∈ st.ext.signed, p.typ = .mfa_challenge →
      p ∈ h.world.ext.signed
    let P : Committed → Prop := fun w' => ∀ p ∈ w'.ext.signed, p.typ = .mfa_challenge →
      p ∈ h.world.ext.signed
    have hI : ∀ o st, s.permits srv o → I st → I (perform schema run_ext o st).2 := by
      intro o st ho hst q hq hqtyp
      rcases perform_ext_state schema run_ext o st with heq | ⟨e, rfl, heq⟩
      · rw [heq] at hq
        exact hst q hq hqtyp
      · rw [heq] at hq
        cases e with
        | put key data => exact hst q hq hqtyp
        | get key => exact hst q hq hqtyp
        | remove key => exact hst q hq hqtyp
        | sign q' =>
          rcases List.mem_append.mp hq with hold | hnew
          · exact hst q hold hqtyp
          · obtain rfl := List.mem_singleton.mp hnew
            cases s with
            | ocr env document_id engine => exact ho.elim
            | request env req =>
              obtain ⟨credentials, route⟩ := req
              have hroute : route.is_login = true := (ho.2 hqtyp).1
              cases route <;> try cases hroute
              exact absurd ⟨_, _, _, _, rfl⟩ hlogin
    have hP : P (s.run srv h.world) :=
      Step.run_confined hI (fun q hq _ => hq) (fun st hst => hst) (fun st hst => hst)
    exact hkeep p (hh p (hP p hp htyp) htyp)

/-- **Challenges.** In every run, a challenge that has been signed is a login's. -/
theorem Reaches.challenges_from_logins {C : History Token → Step Token → Prop} {h : History Token}
    (hr : Reaches srv C History.start h) : ChallengesFromLogins srv h := by
  induction hr with
  | refl =>
    intro p hp
    cases hp
  | step s _ _ ih => exact ih.step

/-! ### How a session comes about -/

/-- The account's second factor is on. -/
def MfaOn (db : Database) (user_id : Uuid) : Prop :=
  ∃ m ∈ db .user_mfa, UserMfa.user_id m = user_id ∧ m.is_active = true

/-- The challenge was signed for the account, no longer ago than its lifetime, by a
    login of the run that had the right password. -/
def ChallengeOf (srv : Server Token) (h : History Token) (env : Env) (challenge_token : Token)
    (user_id : Uuid) : Prop :=
  ∃ x ∈ h.past, ∃ login_env credentials email password account,
    x.1 = .request login_env ⟨credentials, .login email password⟩ ∧
      PasswordVerified srv x.2.db email password account ∧ account.id = user_id ∧
      srv.jwt_decode challenge_token env.now = some (challenge_claims user_id login_env.now) ∧
      env.now ≤ login_env.now + mfa_challenge_ttl

/-- The code was for a step later than the stored counter, which it has replaced,
    or it was a recovery code nobody had used, which is used now. -/
def FactorSpent (srv : Server Token) (env : Env) (code : String) (user_id : Uuid)
    (db db' : Database) : Prop :=
  (∃ m ∈ db .user_mfa, ∃ last step, UserMfa.user_id m = user_id ∧ m.is_active = true ∧
      CodeMatches srv env m code step ∧ m.last_used_counter = some last ∧ last < step ∧
      ({ m with last_used_counter := some step } : UserMfa) ∈ db' .user_mfa) ∨
    (∃ c ∈ db .recovery_code, RecoveryCode.user_id c = user_id ∧
      c.digest = hash_recovery_code srv code ∧ c.used_at = none ∧
      ({ c with used_at := some env.now } : RecoveryCode) ∈ db' .recovery_code)

/-- The request verifies an MFA challenge with a code. -/
def VerifiedByCode (srv : Server Token) (h : History Token) (env : Env) (req : Request Token)
    (user_id : Uuid) (db' : Database) : Prop :=
  ∃ challenge_token code, req.route = .mfa_verify challenge_token code ∧
    ChallengeOf srv h env challenge_token user_id ∧
    FactorSpent srv env code user_id h.world.db db'

/-- The request presents an assertion that verifies under a passkey of the account,
    for a challenge on record. -/
def VerifiedByPasskey (srv : Server Token) (env : Env) (req : Request Token) (user_id : Uuid)
    (db : Database) : Prop :=
  ∃ credential record challenge passkey count,
    req.route = .passkey_login_complete credential ∧
      record ∈ db .passkey_challenge ∧ credential.challenge = some (PasskeyChallenge.challenge record) ∧
      env.now < record.expires_at ∧ srv.base64url_to_bytes record.challenge = some challenge ∧
      passkey ∈ db .passkey ∧ Passkey.user_id passkey = user_id ∧
      srv.webauthn_authentication (relying_party srv) credential challenge passkey.public_key
        passkey.sign_count = .ok count

/-- The one session a sign-in adds. -/
theorem mem_signed_in_rows {env : Env} {email : String} {account : UserAccount} {db : Database}
    {us : UserSession} (h : us ∈ signed_in_rows srv env email account db .user_session) :
    us ∈ db .user_session ∨ us.user_id = account.id := by
  unfold signed_in_rows at h
  rw [Schema.effect_insert_ne _ _ (by decide)] at h
  rcases Schema.mem_effect_insert.mp h with hold | hnew
  · exact .inl hold
  · rw [hnew]
    exact .inr rfl

theorem signed_in_rows_ne {env : Env} {email : String} {account : UserAccount} {db : Database}
    {t : Table} (hs : .user_session ≠ t) (he : .auth_event ≠ t) :
    signed_in_rows srv env email account db t = db t := by
  unfold signed_in_rows
  rw [Schema.effect_insert_ne _ _ he, Schema.effect_insert_ne _ _ hs]

/-- A challenge that verifies is one a login of the run has signed, and has not expired. -/
theorem challengeOf_of_decode {h : History Token} {env : Env} {challenge_token : Token}
    {credentials : Option Token} {code : String} {user_id : Uuid} (hexp : Expires srv)
    (hr : Reaches srv (Honest srv) History.start h)
    (hauth : Authentic srv h env ⟨credentials, .mfa_verify challenge_token code⟩)
    (hdec : decode_mfa_challenge srv challenge_token env.now = some user_id) :
    ChallengeOf srv h env challenge_token user_id := by
  obtain ⟨p, hp, htyp, hsub⟩ := decode_mfa_challenge_eq_some.mp hdec
  have hmem : challenge_token ∈ Request.presented
      (⟨credentials, .mfa_verify challenge_token code⟩ : Request Token) :=
    List.mem_append_right _ (List.mem_singleton_self _)
  obtain ⟨x, hx, login_env, cred, email, password, account, hlogin, hverified, hclaims⟩ :=
    hr.challenges_from_logins p (hauth challenge_token hmem p hp) htyp
  have hid : account.id = user_id := by
    rw [← hsub, hclaims]
    rfl
  subst hclaims
  refine ⟨x, hx, login_env, cred, email, password, account, hlogin, hverified, hid, hid ▸ hp, ?_⟩
  have hbefore := hexp _ _ _ hp
  have hround : timestamp (login_env.now + mfa_challenge_ttl) * second ≤
      login_env.now + mfa_challenge_ttl := Nat.div_mul_le_self _ _
  exact Nat.le_of_lt (Nat.lt_of_lt_of_le hbefore hround)

/-- What an accepted code has spent is spent when the request is committed. -/
theorem factorSpent_of_accepted {env : Env} {account : UserAccount} {code email : String}
    {db db' : Database} (hcount : ConfirmedCounted db)
    (h : CodeAccepted srv env account code db db') :
    FactorSpent srv env code account.id db (signed_in_rows srv env email account db') := by
  unfold FactorSpent
  rw [signed_in_rows_ne (by decide) (by decide), signed_in_rows_ne (by decide) (by decide)]
  cases h with
  | totp m step hmem howner hactive hright hlater =>
    obtain ⟨last, hlast⟩ := Option.isSome_iff_exists.mp (hcount m hmem hactive)
    refine .inl ⟨m, hmem, last, step, howner, hactive, hright, hlast, hlater last hlast, ?_⟩
    exact Schema.mem_effect_update.mpr ⟨m, hmem, Schema.patched_of_eq rfl⟩
  | recovery m c _ _ _ hmem howner hright hunused =>
    refine .inr ⟨c, hmem, howner, hright, hunused, ?_⟩
    exact Schema.mem_effect_update.mpr ⟨c, hmem, Schema.patched_of_eq rfl⟩

/-! ### Route by route -/

/-- The routes that do not sign in add no session. -/
theorem no_new_session {env : Env} {req : Request Token} {w : Committed}
    (hreq : req.route.signs_in = false) :
    ∀ us ∈ (serve srv env req w).2.db .user_session, ∃ us₀ ∈ w.db .user_session,
      UserSession.id us₀ = us.id := by
  let J : Database → Prop := fun db => ∀ us ∈ db .user_session, ∃ us₀ ∈ w.db .user_session,
    UserSession.id us₀ = UserSession.id us
  have hJ : J ((Step.request env req).run srv w).db := by
    refine Step.run_db_invariant ?_ (fun us hus => ⟨us, hus, rfl⟩)
    intro wr db hp _ hdb us hus
    rcases Schema.pk_effect_resolve hus with ⟨us₁, hus₁, hpk⟩ | rfl
    · obtain ⟨us₀, hus₀, hid⟩ := hdb us₁ hus₁
      exact ⟨us₀, hus₀, hid.trans hpk.symm⟩
    · have hsigns : req.route.signs_in = true := hp.2.1
      rw [hreq] at hsigns
      cases hsigns
  exact hJ

/-- A login adds no session for an account with a second factor. -/
theorem login_session_unprotected {env : Env} {credentials : Option Token}
    {email password : String} {w : Committed} :
    ∀ us ∈ (serve srv env ⟨credentials, .login email password⟩ w).2.db .user_session,
      us ∈ w.db .user_session ∨ (¬ MfaOn w.db (UserSession.user_id us) ∧
        ¬ MfaOn (serve srv env ⟨credentials, .login email password⟩ w).2.db us.user_id) := by
  let P : Committed → Prop := fun w' => ∀ us ∈ w'.db .user_session, us ∈ w.db .user_session ∨
    (¬ MfaOn w.db (UserSession.user_id us) ∧ ¬ MfaOn w'.db us.user_id)
  have h0 : ∀ ext, P ⟨w.db, ext⟩ := fun _ us hus => .inl hus
  refine @serve_wps Token srv env ⟨credentials, .login email password⟩ w (fun _ w' => P w') ?_
  refine wps_login (fun _ s' => h0 s'.ext) (fun account _ s' _ _ hre => ⟨fun _ us hus => ?_,
    fun _ => h0 s'.ext⟩) (fun account _ db s' _ hnone hre hdb => ⟨fun _ us hus => ?_,
    fun _ => h0 s'.ext⟩)
  · dsimp only at hus
    rw [hre.other (by decide)] at hus
    exact .inl hus
  · dsimp only at hus ⊢
    rw [hdb] at hus ⊢
    have hmfa : signed_in_rows srv env account.email account db .user_mfa = w.db .user_mfa :=
      (signed_in_rows_ne (by decide) (by decide)).trans (hre.other (by decide))
    rcases mem_signed_in_rows hus with hold | huser
    · rw [hre.other (by decide)] at hold
      exact .inl hold
    · have hoff : ¬ MfaOn w.db us.user_id := by
        rintro ⟨m, hm, hid, hact⟩
        rw [hnone m hm (hid.trans huser)] at hact
        cases hact
      refine .inr ⟨hoff, ?_⟩
      unfold MfaOn at hoff ⊢
      rwa [hmfa]

theorem mfa_verify_session {h : History Token} {env : Env} {credentials : Option Token}
    {challenge_token : Token} {code : String} (hexp : Expires srv)
    (hr : Reaches srv (Honest srv) History.start h)
    (hauth : Authentic srv h env ⟨credentials, .mfa_verify challenge_token code⟩) :
    ∀ us ∈ (serve srv env ⟨credentials, .mfa_verify challenge_token code⟩
        h.world).2.db .user_session,
      us ∈ h.world.db .user_session ∨
        VerifiedByCode srv h env ⟨credentials, .mfa_verify challenge_token code⟩
          (UserSession.user_id us)
          (serve srv env ⟨credentials, .mfa_verify challenge_token code⟩ h.world).2.db := by
  let P : Committed → Prop := fun w' => ∀ us ∈ w'.db .user_session,
    us ∈ h.world.db .user_session ∨
      VerifiedByCode srv h env ⟨credentials, .mfa_verify challenge_token code⟩
        (UserSession.user_id us) w'.db
  have h0 : ∀ ext, P ⟨h.world.db, ext⟩ := fun _ us hus => .inl hus
  refine @serve_wps Token srv env ⟨credentials, .mfa_verify challenge_token code⟩ h.world
    (fun _ w' => P w') ?_
  refine wps_mfa_verify (fun _ s' => h0 s'.ext)
    fun account reply db s' hacc _ hdec haccepted hdb => ⟨fun _ us hus => ?_, fun _ => h0 s'.ext⟩
  dsimp only at hus ⊢
  rw [hdb] at hus ⊢
  rcases mem_signed_in_rows hus with hold | huser
  · rw [haccepted.other (by decide) (by decide)] at hold
    exact .inl hold
  · rw [huser]
    exact .inr ⟨challenge_token, code, rfl, challengeOf_of_decode hexp hr hauth hdec,
      factorSpent_of_accepted hr.confirmed_counted haccepted⟩

theorem passkey_session {env : Env} {credentials : Option Token} {credential : Credential}
    {w : Committed} :
    ∀ us ∈ (serve srv env ⟨credentials, .passkey_login_complete credential⟩ w).2.db .user_session,
      us ∈ w.db .user_session ∨
        VerifiedByPasskey srv env ⟨credentials, .passkey_login_complete credential⟩
          (UserSession.user_id us) w.db := by
  let P : Committed → Prop := fun w' => ∀ us ∈ w'.db .user_session, us ∈ w.db .user_session ∨
    VerifiedByPasskey srv env ⟨credentials, .passkey_login_complete credential⟩
      (UserSession.user_id us) w.db
  have h0 : ∀ ext, P ⟨w.db, ext⟩ := fun _ us hus => .inl hus
  refine @serve_wps Token srv env ⟨credentials, .passkey_login_complete credential⟩ w
    (fun _ w' => P w') ?_
  refine wps_passkey_login_complete (fun _ s' => h0 s'.ext)
    fun record challenge db passkey account count reply s' htaken hbytes hverified hdb =>
      ⟨fun _ us hus => ?_, fun _ => h0 s'.ext⟩
  dsimp only at hus
  rw [hdb] at hus
  -- deleting the challenge brings no row into a table
  have hsub : ∀ {t : Table}, schema.Rigid t → ∀ r ∈ db t, r ∈ w.db t := by
    intro t ht r hr
    rw [htaken.result] at hr
    obtain ⟨r₀, hr₀, _, rfl⟩ := Schema.mem_effect_remove.mp hr
    rw [ht]
    exact hr₀
  rcases mem_signed_in_rows hus with hold | huser
  · rw [Schema.effect_update_ne _ _ _ (by decide)] at hold
    exact .inl (hsub (rigid (t := .user_session) (by decide)) us hold)
  · rw [huser]
    exact .inr ⟨credential, record, challenge, passkey, count, rfl, htaken.mem, htaken.answered,
      htaken.fresh, hbytes, hsub (rigid (t := .passkey) (by decide)) passkey hverified.mem,
      hverified.owner.symm, hverified.assertion⟩

/-! ### Two kinds of token -/

/-- A token that is no access token opens no guarded route. -/
theorem challenge_refused_as_access {env : Env} {req : Request Token} {w : Committed}
    {token : Token} (htoken : req.credentials = some token) (hguarded : req.route.guarded = true)
    (hkind : ∀ p, srv.jwt_decode token env.now = some p → p.typ = .mfa_challenge) :
    (serve srv env req w).1.refuses := by
  let P : Response Token → Committed → Prop := fun resp _ => resp.refuses
  have hP : P (serve srv env req w).1 (serve srv env req w).2 := by
    obtain ⟨f, hf⟩ : ∃ f, respond srv env req = authenticated srv env req.credentials >>= f :=
      respond_guarded hguarded
    apply serve_wps
    rw [hf]
    refine wps_authenticated_bind (fun e => answer_error_refuses _ e) fun auth hauth => ?_
    obtain ⟨token', htoken', claims, hclaims, _⟩ := hauth.token
    rw [htoken] at htoken'
    cases htoken'
    obtain ⟨p, hp, htyp, _⟩ := decode_access_token_eq_some.mp hclaims
    rw [hkind p hp] at htyp
    cases htyp
  exact hP

/-- A token that is no challenge is refused as one. -/
theorem access_refused_as_challenge {env : Env} {credentials : Option Token} {w : Committed}
    {token : Token} {code : String}
    (hkind : ∀ p, srv.jwt_decode token env.now = some p → p.typ = .access) :
    (serve srv env ⟨credentials, .mfa_verify token code⟩ w).1.refuses := by
  let P : Response Token → Committed → Prop := fun resp _ => resp.refuses
  have hP : P (serve srv env ⟨credentials, .mfa_verify token code⟩ w).1
      (serve srv env ⟨credentials, .mfa_verify token code⟩ w).2 := by
    apply serve_wps
    refine wps_mfa_verify (fun e _ => answer_error_refuses _ e)
      fun account reply db s' _ _ hdec _ _ => ?_
    obtain ⟨p, hp, htyp, _⟩ := decode_mfa_challenge_eq_some.mp hdec
    rw [hkind p hp] at htyp
    cases htyp
  exact hP

/-! ### The guarantee -/

/-- **Second factor.** In every run, a session that a request adds for an account
    whose second factor is on was verified by a challenge and a code, or by a
    passkey; and neither kind of token passes for the other. -/
theorem mfa_session_needs_second_factor (hexp : Expires srv) {h : History Token}
    (hr : Reaches srv (Honest srv) History.start h) {env : Env} {req : Request Token}
    (hon : Honest srv h (.request env req)) :
    (∀ us ∈ (serve srv env req h.world).2.db .user_session,
      (∀ us₀ ∈ h.world.db .user_session, UserSession.id us₀ ≠ UserSession.id us) →
      MfaOn h.world.db us.user_id ∨ MfaOn (serve srv env req h.world).2.db us.user_id →
      VerifiedByCode srv h env req us.user_id (serve srv env req h.world).2.db ∨
        VerifiedByPasskey srv env req us.user_id h.world.db) ∧
    (∀ token, req.credentials = some token → req.route.guarded = true →
      (∀ p, srv.jwt_decode token env.now = some p → p.typ = .mfa_challenge) →
      (serve srv env req h.world).1.refuses) ∧
    (∀ token code, req.route = .mfa_verify token code →
      (∀ p, srv.jwt_decode token env.now = some p → p.typ = .access) →
      (serve srv env req h.world).1.refuses) := by
  refine ⟨fun us hus hnew hmfa => ?_, fun token htoken hguarded hkind =>
    challenge_refused_as_access htoken hguarded hkind, fun token code hroute hkind => ?_⟩
  swap
  · obtain ⟨credentials, route⟩ := req
    dsimp only at hroute
    subst hroute
    exact access_refused_as_challenge hkind
  -- three routes add a session: the password alone serves where no second factor is on, and the
  -- other two verify one
  by_cases hsigns : req.route.signs_in = false
  · obtain ⟨us₀, hus₀, hid⟩ := no_new_session hsigns us hus
    exact absurd hid (hnew us₀ hus₀)
  obtain ⟨credentials, route⟩ := req
  cases route
  case login email password =>
    rcases login_session_unprotected us hus with hold | ⟨hbefore, hafter⟩
    · exact absurd rfl (hnew us hold)
    · rcases hmfa with hon | hon
      · exact absurd hon hbefore
      · exact absurd hon hafter
  case mfa_verify challenge_token code =>
    rcases mfa_verify_session hexp hr hon.2 us hus with hold | hverified
    · exact absurd rfl (hnew us hold)
    · exact .inl hverified
  case passkey_login_complete credential =>
    rcases passkey_session us hus with hold | hverified
    · exact absurd rfl (hnew us hold)
    · exact .inr hverified
  all_goals exact absurd rfl hsigns

/-! ### An account that turns it on -/

/-- An account signs in, turns its second factor on, and gives its password again. -/
def challenged : List Sample.Line :=
  [⟨5, 150 * second, ⟨none, .login "a@x.org" "correct horse"⟩⟩,
   ⟨4, 120 * second, ⟨some (access_claims 4096#128 8192#128 (101 * second)),
      .mfa_confirm "100004"⟩⟩,
   ⟨3, 102 * second, ⟨some (access_claims 4096#128 8192#128 (101 * second)), .mfa_setup⟩⟩,
   ⟨2, 101 * second, ⟨none, .login "a@x.org" "correct horse"⟩⟩,
   ⟨1, 100 * second, ⟨none, .register "a@x.org" "correct horse" none⟩⟩]

/-- The challenge of that login, with the code of a later step. -/
def answered_challenge : Sample.Line :=
  ⟨6, 180 * second, ⟨none, .mfa_verify (challenge_claims 4096#128 (150 * second)) "100006"⟩⟩

/-- The session it opens. -/
def second_session : UserSession :=
  ⟨24576#128, 4096#128, hash_refresh_token Sample.server "6", refresh_expiry (180 * second), none,
    some (180 * second)⟩

/-- The run, evaluated once. -/
theorem challenged_run :
    Sample.honest (answered_challenge :: challenged) = true ∧
      second_session ∈ (Sample.play (answered_challenge :: challenged)).world.db .user_session ∧
      (∀ us₀ ∈ (Sample.play challenged).world.db .user_session,
        UserSession.id us₀ ≠ UserSession.id second_session) ∧
      (⟨12288#128, 4096#128, "secret", some (120 * second), some 4⟩ : UserMfa) ∈
        (Sample.play challenged).world.db .user_mfa := by
  decide +kernel

theorem expires_sample : Expires Sample.server := by
  intro token now p hp
  change (if token.iat * second ≤ now ∧ now < token.exp * second then some token else none) =
    some p at hp
  split at hp
  · rename_i hvalid
    cases hp
    exact hvalid.2
  · cases hp

theorem challenged_session_verified :
    VerifiedByCode Sample.server (Sample.play challenged) (Sample.env 6 (180 * second))
        answered_challenge.req 4096#128
        (Sample.play (answered_challenge :: challenged)).world.db ∨
      VerifiedByPasskey Sample.server (Sample.env 6 (180 * second)) answered_challenge.req 4096#128
        (Sample.play challenged).world.db := by
  obtain ⟨hhonest, hadded, hnew, henrolled⟩ := challenged_run
  have hreach : Reaches Sample.server (Honest Sample.server) History.start
      (Sample.play challenged) := by
    apply Sample.reaches_play
    simp only [Sample.honest, Bool.and_eq_true] at hhonest ⊢
    exact hhonest.1
  have hmfa : MfaOn (Sample.play challenged).world.db second_session.user_id :=
    ⟨_, henrolled, rfl, rfl⟩
  exact (mfa_session_needs_second_factor expires_sample hreach (Sample.honest_line hhonest)).1
    second_session hadded hnew (.inl hmfa)

end CounselReady
