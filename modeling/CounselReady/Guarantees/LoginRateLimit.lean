import CounselReady.Sample

/-! # The Login Rate Limit

    A failed login is recorded and then raised, and the raise rolls the record
    back. So the limiter counts the failures that were committed before the
    run, and none of those the run itself answers with a 401.

    * `serve_login_by`: the ways a login can go.
    * `serve_login`: what one login request answers, and that it leaves the
      number of recorded failures as it was.
    * `rate_limit_holds_iff`: over a whole run, the limit holds exactly when
      the failures of the run never make up the number it is set at.
-/

namespace CounselReady

open Relational Framework Prog

variable {Token : Type} {srv : Server Token}

/-! ### Login requests -/

/-- One `POST /auth/login`. -/
structure Attempt (Token : Type) where
  env : Env
  credentials : Option Token
  email : String
  password : String

namespace Attempt

def request (a : Attempt Token) : Request Token := ⟨a.credentials, .login a.email a.password⟩

def now (a : Attempt Token) : Nat := a.env.now

/-- The normalised address, when the body carries one. -/
def address (srv : Server Token) (a : Attempt Token) : Option String :=
  (srv.email_str a.email).map (normalize_email srv)

def well_formed (a : Attempt Token) : Bool := length_within 0 max_password_length a.password

end Attempt

/-- The failures on record for an address, from a time on. -/
def failures (db : Database) (email : String) (since : Nat) : Nat :=
  ((db .auth_event).filter (fun e : AuthEvent =>
    e.email == email && e.event_type == .login_failed && decide (since ≤ e.created_at))).length

/-- The limit is reached on the strength of what is on record. -/
def limit_reached (db : Database) (email : String) (now : Nat) : Bool :=
  decide (max_failed_logins ≤ failures db email (now - login_window))

/-- The password is right for the one active account of the address. -/
def credentials_hold (srv : Server Token) (db : Database) (email password : String) : Bool :=
  match (db .user_account).filter (fun a : UserAccount => a.email == email) with
  | [account] => verify_password_against srv password account.password_hash && account.active
  | _ => false

/-- The row that a refused login writes, before it is rolled back. -/
def failure_row (db : Database) (a : Attempt Token) (email : String) :
    AuthEvent where
  id := a.env.uuid 0
  created_at := a.env.now
  email := email
  user_id := ((db .user_account).filter (fun a : UserAccount => a.email == email)).head?.map
    UserAccount.id
  event_type := .login_failed

namespace Attempt

/-- The request is well formed and the limit is reached. -/
def limited (srv : Server Token) (w : Committed) (a : Attempt Token) : Bool :=
  match a.address srv with
  | none => false
  | some email => a.well_formed && limit_reached w.db email a.now

/-- The request is well formed, the limit is not reached, the credentials are
    wrong, and no constraint or fault stops the failure from being written. -/
def rejects (srv : Server Token) (w : Committed) (a : Attempt Token) : Bool :=
  match a.address srv with
  | none => false
  | some email =>
      a.well_formed && !limit_reached w.db email a.now &&
        decide (((w.db .user_account).filter
          (fun a : UserAccount => a.email == email)).length ≤ 1) &&
        !credentials_hold srv w.db email a.password &&
        a.env.faults.head? != some true &&
        (schema.check w.db (.insert .auth_event (failure_row w.db a email))).isNone

end Attempt

/-! ### One login -/

/-- What is known once a login has been answered. -/
structure LoginAnswered (srv : Server Token) (a : Attempt Token) (w : Committed)
    (resp : Response Token) (w' : Committed) : Prop where
  unauthorized : resp.status = 401 ↔ a.rejects srv w = true
  too_many : resp.status = 429 ↔ a.limited srv w = true
  silent : resp.status = 429 → w'.db = w.db ∧ w'.ext.signed = w.ext.signed
  kept : ∀ email since, failures w'.db email since = failures w.db email since

/-- An answer that is neither a 401 nor a 429, and leaves the record alone. -/
theorem LoginAnswered.of_other {a : Attempt Token} {w w' : Committed} {resp : Response Token}
    (h401 : resp.status ≠ 401) (h429 : resp.status ≠ 429) (hrej : a.rejects srv w = false)
    (hlim : a.limited srv w = false)
    (hkept : ∀ email since, failures w'.db email since = failures w.db email since) :
    LoginAnswered srv a w resp w' where
  unauthorized := by simp [h401, hrej]
  too_many := by simp [h429, hlim]
  silent := fun h => absurd h h429
  kept := hkept

/-- A sign-in that succeeds is recorded as a success. -/
theorem failures_insert_success {db : Database} {row : AuthEvent}
    (hrow : row.event_type = .login_succeeded) (email : String) (since : Nat) :
    failures (schema.effect (.insert .auth_event row) db) email since =
      failures db email since := by
  unfold failures
  rw [Schema.effect_insert_self, List.filter_append]
  simp [hrow]

theorem failures_congr {db db' : Database} (h : db' .auth_event = db .auth_event) (email : String)
    (since : Nat) : failures db' email since = failures db email since := by
  unfold failures
  rw [h]

theorem wps_refuse_login {a : Attempt Token} {email : String} {account : Option UserAccount}
    {s : Session} {Q : Except Exc (SignIn Token) → Session → Prop}
    (herr : ∀ v faults, a.env.faults.head? = some true ∨
      (schema.check s.db (.insert .auth_event ⟨a.env.uuid 0, a.env.now, email,
        account.map UserAccount.id, .login_failed⟩)).isSome = true →
      Q (.error (.database v)) { s with faults := faults })
    (hok : a.env.faults.head? ≠ some true →
      schema.check s.db (.insert .auth_event ⟨a.env.uuid 0, a.env.now, email,
        account.map UserAccount.id, .login_failed⟩) = none →
      ∀ s' : Session, s'.ext = s.ext → Q (.error .authentication) s')
    (hfaults : s.faults = a.env.faults) :
    wps (refuse_login a.env email account : Handler (SignIn Token)) Q s := by
  refine wps_bind (wp_execute_cases ?_ ?_ ?_)
  · intro hf
    exact herr _ _ (.inl (hfaults ▸ hf))
  · intro v hv
    exact herr _ _ (.inr (by rw [hv]; rfl))
  · intro hf hc
    exact (wp_raise _).mpr (hok (hfaults ▸ hf) hc _ rfl)

section outcomes
variable {a : Attempt Token} {w : Committed} {email : String} {account : UserAccount}
  {P : Response Token → Committed → Prop}

/-- What is left to show of a login once the sign-in in it has ended. -/
def sign_in_ends (a : Attempt Token) (w : Committed) (P : Response Token → Committed → Prop) :
    Except Exc (SignIn Token) → Session → Prop :=
  rethrown login_answer (after (perform schema run_ext) (fun r => pure (login_reply r))
    (settles .commit_failed a.env.commits (w.met a.env)
      (fun r w' => P (answer a.request.route r) w')))

/-- **Login rule.** A login is malformed, or the limit is reached, or it comes to the accounts
    of its address: none, one that it signs in to or not, or several. -/
theorem serve_login_by
    (hmalformed : (∀ email, a.address srv = some email → a.well_formed = false) →
      ∀ w', w'.db = w.db → w'.ext.signed = w.ext.signed →
        P (answer a.request.route (.error unprocessable)) w')
    (hlimited : ∀ email, a.address srv = some email → a.well_formed = true →
      limit_reached w.db email a.now = true →
      ∀ w', w'.db = w.db → w'.ext.signed = w.ext.signed →
        P (answer a.request.route (.error (login_answer (.rate_limited login_window)))) w')
    (hrefused : ∀ email found, a.address srv = some email → a.well_formed = true →
      limit_reached w.db email a.now = false →
      (w.db .user_account).filter (fun u : UserAccount => u.email == email) =
        Option.toList found →
      credentials_hold srv w.db email a.password = false →
      wps (refuse_login a.env email found) (sign_in_ends a w P) (w.begin a.env))
    (haccepted : ∀ email account, a.address srv = some email →
      limit_reached w.db email a.now = false →
      (w.db .user_account).filter (fun u : UserAccount => u.email == email) = [account] →
      credentials_hold srv w.db email a.password = true →
      wps (accept_password srv a.env email a.password account) (sign_in_ends a w P)
        (w.begin a.env))
    (hmany : ∀ email, a.address srv = some email → limit_reached w.db email a.now = false →
      1 < ((w.db .user_account).filter (fun u : UserAccount => u.email == email)).length →
      ∀ w', w'.db = w.db → w'.ext.signed = w.ext.signed →
        P (answer a.request.route (.error (login_answer .multiple_results_found))) w') :
    P (serve srv a.env a.request w).1 (serve srv a.env a.request w).2 := by
  refine @serve_wps Token srv a.env a.request w P ?_
  refine wps_some_or_bind (fun hnone => ?_) fun m hm => ?_
  · have haddr : a.address srv = none := by simp [Attempt.address, hnone]
    refine hmalformed (fun email hsome => ?_) _ rfl rfl
    rw [haddr] at hsome
    cases hsome
  have haddr : a.address srv = some (normalize_email srv m) := by simp [Attempt.address, hm]
  generalize hemail : normalize_email srv m = email at haddr
  refine wps_require_bind (fun hlen => hmalformed (fun _ _ => hlen) _ rfl rfl) fun hwf => ?_
  refine wps_bind ((wp_rethrow _ _).mpr ?_)
  unfold authenticate
  simp only [hemail]
  refine wps_bind (wps_select_bind ((wp_pure _).mpr ?_))
  -- the count comes before the password is looked at
  refine wps_require_bind (fun hover => ?_) fun hfew => ?_
  · have hlim : limit_reached w.db email a.now = true := by
      simpa [limit_reached, failures, Attempt.now] using hover
    exact hlimited email haddr hwf hlim _ rfl rfl
  have hnolim : limit_reached w.db email a.now = false := by
    simpa [limit_reached, failures, Attempt.now] using hfew
  refine wps_bind (wps_select_one (fun hnone => ?_) (fun account _ _ hone => ?_)
    fun hseveral => hmany email haddr hnolim hseveral _ rfl rfl)
  · have hnil : (w.db .user_account).filter (fun u : UserAccount => u.email == email) = [] :=
      List.filter_eq_nil_iff.mpr fun u hu => by simpa using hnone u hu
    exact hrefused email none haddr hwf hnolim hnil (by simp [credentials_hold, hnil])
  · have hone : (w.db .user_account).filter (fun u : UserAccount => u.email == email) =
        [account] := hone
    refine (wp_ite _ _).mpr ⟨fun hmatch => ?_, fun hmatch => ?_⟩
    · refine haccepted email account haddr hnolim hone ?_
      simp only [credentials_hold, hone]
      exact hmatch
    · refine hrefused email (some account) haddr hwf hnolim hone ?_
      simp only [credentials_hold, hone]
      exact Bool.not_eq_true _ ▸ hmatch

/-- The limit is reached: a 429, and nothing happens. -/
theorem LoginAnswered.of_limited {w' : Committed} (haddr : a.address srv = some email)
    (hwf : a.well_formed = true) (hlim : limit_reached w.db email a.now = true)
    (hdb : w'.db = w.db) (hsigned : w'.ext.signed = w.ext.signed) :
    LoginAnswered srv a w
      (answer a.request.route (.error (login_answer (.rate_limited login_window)))) w' where
  unauthorized := by
    simp [answer, login_answer, Response.status, Attempt.rejects, haddr, hlim]
  too_many := by
    simp [answer, login_answer, Response.status, Attempt.limited, haddr, hwf, hlim]
  silent := fun _ => ⟨hdb, hsigned⟩
  kept := fun _ _ => by rw [hdb]

/-- Wrong credentials: a 401, unless the record of the failure is not admitted,
    and the record does not stay either way. -/
theorem wps_login_refused {found : Option UserAccount} (haddr : a.address srv = some email)
    (hwf : a.well_formed = true) (hnolim : limit_reached w.db email a.now = false)
    (hfilter : (w.db .user_account).filter (fun a : UserAccount => a.email == email) =
      found.toList)
    (hwrong : credentials_hold srv w.db email a.password = false) :
    wps (refuse_login a.env email found) (sign_in_ends a w (LoginAnswered srv a w))
      (w.begin a.env) := by
  have hlimited : a.limited srv w = false := by simp [Attempt.limited, haddr, hnolim]
  have hrow : failure_row w.db a email = ⟨a.env.uuid 0, a.env.now, email,
      found.map UserAccount.id, .login_failed⟩ := by
    unfold failure_row
    rw [hfilter]
    cases found <;> rfl
  have hlen : ((w.db .user_account).filter
      (fun a : UserAccount => a.email == email)).length ≤ 1 := by
    rw [hfilter]
    cases found <;> simp
  refine wps_refuse_login ?_ ?_ rfl
  · intro v faults hwhy
    refine .of_other (by simp [answer, login_answer, Response.status])
      (by simp [answer, login_answer, Response.status]) ?_ hlimited (fun _ _ => rfl)
    -- the record of the failure is what did not get in
    rcases hwhy with hf | hc
    · simp [Attempt.rejects, haddr, hf]
    · rw [← hrow] at hc
      simp only [Attempt.rejects, haddr]
      cases hchk : schema.check w.db (.insert .auth_event (failure_row w.db a email)) with
      | none =>
        rw [Committed.begin_db, hchk] at hc
        cases hc
      | some v => simp
  · -- it is admitted, and rolled back with the 401
    intro hf hc s' hext
    rw [← hrow, Committed.begin_db] at hc
    have hsigned : s'.ext.signed = w.ext.signed := by
      rw [hext]
      rfl
    refine ⟨?_, ?_, fun _ => ⟨rfl, hsigned⟩, fun _ _ => rfl⟩
    · simp [answer, login_answer, invalid_credentials, http_error, Response.status,
        Attempt.rejects, haddr, hwf, hnolim, hlen, hwrong, hf, hc]
    · simp [answer, login_answer, invalid_credentials, http_error, Response.status, hlimited]

/-- The right password: neither a 401 nor a 429, and what is recorded is a
    success. -/
theorem wps_login_accepted (hrej : a.rejects srv w = false) (hlimited : a.limited srv w = false) :
    wps (accept_password srv a.env email a.password account)
      (sign_in_ends a w (LoginAnswered srv a w)) (w.begin a.env) := by
  have hother : ∀ (r : Except Exc (Reply Token)) (w' : Committed),
      (answer a.request.route r).status ≠ 401 → (answer a.request.route r).status ≠ 429 →
      (∀ email since, failures w'.db email since = failures w.db email since) →
      LoginAnswered srv a w (answer a.request.route r) w' :=
    fun r w' h1 h2 hk => .of_other h1 h2 hrej hlimited hk
  refine wps_accept_password ?_ ?_ ?_ ?_ ?_
  · intro message s'
    exact hother _ _ (by simp [answer, login_answer, Response.status])
      (by simp [answer, login_answer, Response.status]) (fun _ _ => rfl)
  · intro v s'
    exact hother _ _ (by simp [answer, login_answer, Response.status])
      (by simp [answer, login_answer, Response.status]) (fun _ _ => rfl)
  · intro s'
    exact hother _ _ (by simp [answer, login_answer, Response.status])
      (by simp [answer, login_answer, Response.status]) (fun _ _ => rfl)
  · intro s' hre _ _
    refine (wp_pure _).mpr ⟨fun _ => ?_, fun _ => ?_⟩
    · exact hother _ _ (by simp [answer, Attempt.request, Route.success_status,
        Response.status]) (by simp [answer, Attempt.request, Route.success_status,
        Response.status]) (failures_congr (hre.other (by decide)))
    · exact hother _ _ (by simp [answer, Response.status]) (by simp [answer, Response.status])
        (fun _ _ => rfl)
  · intro issued db s' hre _ hdb _
    refine (wp_pure _).mpr ⟨fun _ => ?_, fun _ => ?_⟩
    · refine hother _ _ (by simp [answer, Attempt.request, Route.success_status,
        Response.status]) (by simp [answer, Attempt.request, Route.success_status,
        Response.status]) ?_
      intro email' since
      dsimp only
      rw [hdb, signed_in_rows, failures_insert_success rfl]
      refine failures_congr ?_ email' since
      rw [Schema.effect_insert_ne _ _ (by decide)]
      exact hre.other (by decide)
    · exact hother _ _ (by simp [answer, Response.status]) (by simp [answer, Response.status])
        (fun _ _ => rfl)

end outcomes

/-- **Login.** One request: a 401 goes with wrong credentials and a 429 with a
    limit reached before, and neither leaves a trace. -/
theorem serve_login (a : Attempt Token) (w : Committed) :
    LoginAnswered srv a w (serve srv a.env a.request w).1 (serve srv a.env a.request w).2 := by
  refine serve_login_by (fun hbad w' hdb _ => ?_) ?_ ?_ ?_ ?_
  · have hneither : a.rejects srv w = false ∧ a.limited srv w = false := by
      unfold Attempt.rejects Attempt.limited
      cases haddr : a.address srv with
      | none => exact ⟨rfl, rfl⟩
      | some email => simp [hbad email haddr]
    exact .of_other (by simp [answer, unprocessable, Response.status])
      (by simp [answer, unprocessable, Response.status]) hneither.1 hneither.2
      (fun _ _ => by rw [hdb])
  · intro email haddr hwf hlim w' hdb hsigned
    exact .of_limited haddr hwf hlim hdb hsigned
  · intro email found haddr hwf hnolim hfilter hwrong
    exact wps_login_refused haddr hwf hnolim hfilter hwrong
  · intro email account haddr hnolim _ hright
    exact wps_login_accepted (by simp [Attempt.rejects, haddr, hright])
      (by simp [Attempt.limited, haddr, hnolim])
  · intro email haddr hnolim hmany w' hdb _
    have hmany' : ¬ ((w.db .user_account).filter
        (fun u : UserAccount => u.email == email)).length ≤ 1 := Nat.not_le.mpr hmany
    exact .of_other (by simp [answer, login_answer, Response.status])
      (by simp [answer, login_answer, Response.status])
      (by simp [Attempt.rejects, haddr, hmany']) (by simp [Attempt.limited, haddr, hnolim])
      (fun _ _ => by rw [hdb])

/-! ### A run of logins -/

/-- A login with the state it met, its answer, and the state it left. -/
structure Login (Token : Type) where
  attempt : Attempt Token
  before : Committed
  response : Response Token
  after : Committed

/-- The logins of a run, first one first. -/
def logins (srv : Server Token) : Committed → List (Attempt Token) → List (Login Token)
  | _, [] => []
  | w, a :: as =>
      ⟨a, w, (serve srv a.env a.request w).1, (serve srv a.env a.request w).2⟩ ::
        logins srv (serve srv a.env a.request w).2 as

/-- How many of the logins are for the address, lie in the window before `now`,
    and satisfy `p`. -/
def count_within (srv : Server Token) (email : String) (now : Nat) (p : Login Token → Bool)
    (ls : List (Login Token)) : Nat :=
  (ls.filter (fun ℓ => ℓ.attempt.address srv == some email &&
    decide (now - login_window ≤ ℓ.attempt.now) && p ℓ)).length

namespace Login

def unauthorized (ℓ : Login Token) : Bool := decide (ℓ.response.status = 401)

def rejected (srv : Server Token) (ℓ : Login Token) : Bool := ℓ.attempt.rejects srv ℓ.before

/-- Nothing was written, and neither an access token nor a challenge was signed. -/
def issues_nothing (ℓ : Login Token) : Prop :=
  ℓ.after.db = ℓ.before.db ∧ ℓ.after.ext.signed = ℓ.before.ext.signed

end Login

/-- Enough 401s for an address, within the window, turn its next login into a
    429 that issues nothing; and a 429 is due to failures of the address itself,
    on record when the run began or answered with a 401 since. -/
def LimitHolds (srv : Server Token) (w₀ : Committed) (as : List (Attempt Token)) : Prop :=
  ∀ i ℓ email, (logins srv w₀ as)[i]? = some ℓ → ℓ.attempt.address srv = some email →
    (max_failed_logins ≤
        count_within srv email ℓ.attempt.now Login.unauthorized ((logins srv w₀ as).take i) →
      ℓ.response.status = 429 ∧ ℓ.issues_nothing) ∧
    (ℓ.response.status = 429 →
      max_failed_logins ≤ failures w₀.db email (ℓ.attempt.now - login_window) +
        count_within srv email ℓ.attempt.now Login.unauthorized ((logins srv w₀ as).take i))

/-- **Run.** Each login of a run is answered as `serve_login` says, and the
    failures on record are those the run began with. -/
theorem mem_logins {w : Committed} {as : List (Attempt Token)} {ℓ : Login Token}
    (h : ℓ ∈ logins srv w as) :
    LoginAnswered srv ℓ.attempt ℓ.before ℓ.response ℓ.after ∧
      ∀ email since, failures ℓ.before.db email since = failures w.db email since := by
  induction as generalizing w with
  | nil => cases h
  | cons a as ih =>
    rcases List.mem_cons.mp h with rfl | hrest
    · exact ⟨serve_login a w, fun _ _ => rfl⟩
    · obtain ⟨hans, hkept⟩ := ih hrest
      refine ⟨hans, fun email since => ?_⟩
      rw [hkept, (serve_login a w).kept]

/-- The 401s are the rejected logins. -/
theorem count_unauthorized {w : Committed} {as : List (Attempt Token)} (email : String)
    (now i : Nat) :
    count_within srv email now Login.unauthorized ((logins srv w as).take i) =
      count_within srv email now (Login.rejected srv) ((logins srv w as).take i) := by
  unfold count_within
  refine congrArg List.length (List.filter_congr fun ℓ hℓ => ?_)
  have hans := (mem_logins (List.mem_of_mem_take hℓ)).1.unauthorized
  have hsame : ℓ.unauthorized = ℓ.rejected srv := by
    rw [Bool.eq_iff_iff]
    simpa [Login.unauthorized, Login.rejected] using hans
  rw [hsame]

/-- A login of the run is answered with a 429 exactly when it is well formed and
    the limit was reached before the run. -/
theorem too_many_iff {w : Committed} {as : List (Attempt Token)} {ℓ : Login Token}
    {email : String} (h : ℓ ∈ logins srv w as) (haddr : ℓ.attempt.address srv = some email) :
    ℓ.response.status = 429 ↔
      ℓ.attempt.well_formed = true ∧ limit_reached w.db email ℓ.attempt.now = true := by
  obtain ⟨hans, hkept⟩ := mem_logins h
  rw [hans.too_many]
  simp only [Attempt.limited, haddr, limit_reached, hkept, Bool.and_eq_true]

/-- **The limit.** It holds over a run exactly when no address collects the
    number of rejected logins it is set at before one more login for it, unless
    that one is well formed and the limit was reached before the run. -/
theorem rate_limit_holds_iff (srv : Server Token) (w₀ : Committed) (as : List (Attempt Token)) :
    LimitHolds srv w₀ as ↔
      ∀ i ℓ email, (logins srv w₀ as)[i]? = some ℓ → ℓ.attempt.address srv = some email →
        max_failed_logins ≤
          count_within srv email ℓ.attempt.now (Login.rejected srv) ((logins srv w₀ as).take i) →
        ℓ.attempt.well_formed = true ∧ limit_reached w₀.db email ℓ.attempt.now = true := by
  constructor
  · intro hlimit i ℓ email hi haddr hcount
    rw [← count_unauthorized] at hcount
    have h429 := ((hlimit i ℓ email hi haddr).1 hcount).1
    exact (too_many_iff (List.mem_of_getElem? hi) haddr).mp h429
  · intro hcond i ℓ email hi haddr
    have hmem := List.mem_of_getElem? hi
    constructor
    · intro hcount
      rw [count_unauthorized] at hcount
      have h429 := (too_many_iff hmem haddr).mpr (hcond i ℓ email hi haddr hcount)
      exact ⟨h429, (mem_logins hmem).1.silent h429⟩
    · intro h429
      have hreached := ((too_many_iff hmem haddr).mp h429).2
      have hle : max_failed_logins ≤ failures w₀.db email (ℓ.attempt.now - login_window) := by
        simpa [limit_reached] using hreached
      exact Nat.le_add_right_of_le hle

/-! ### Guessing -/

/-- One account, and nothing else. -/
def one_account : Committed :=
  (serve Sample.server (Sample.env 1 (100 * second))
    ⟨none, .register "a@x.org" "correct horse" none⟩ Committed.empty).2

/-- Ten wrong passwords within ten seconds, and then the right one. -/
def guesses : List (Attempt Payload) :=
  (List.range 10).map (fun i =>
      ⟨Sample.env (2 + i) ((200 + i) * second), none, "a@x.org", "wrong horse"⟩) ++
    [⟨Sample.env 12 (210 * second), none, "a@x.org", "correct horse"⟩]

/-- The eleventh guess is let in. -/
theorem guesses_not_limited :
    (guesses.map Attempt.now).Pairwise (· ≤ ·) ∧
      ((logins Sample.server one_account guesses).map (fun ℓ => ℓ.response.status)) =
        List.replicate 10 401 ++ [200] ∧
      ¬ LimitHolds Sample.server one_account guesses := by
  have hstatus : ((logins Sample.server one_account guesses).map (fun ℓ => ℓ.response.status)) =
      List.replicate 10 401 ++ [200] := by
    decide +kernel
  refine ⟨by decide +kernel, hstatus, ?_⟩
  intro hlimit
  obtain ⟨ℓ, hℓ⟩ : ∃ ℓ, (logins Sample.server one_account guesses)[10]? = some ℓ := by
    refine ⟨_, List.getElem?_eq_getElem ?_⟩
    decide +kernel
  have haddr : ℓ.attempt.address Sample.server = some "a@x.org" := by
    have hall : ((logins Sample.server one_account guesses)[10]?).map
        (fun ℓ => ℓ.attempt.address Sample.server) = some (some "a@x.org") := by
      decide +kernel
    simpa [hℓ] using hall
  have hnow : ℓ.attempt.now = 210 * second := by
    have hall : ((logins Sample.server one_account guesses)[10]?).map
        (fun ℓ => ℓ.attempt.now) = some (210 * second) := by
      decide +kernel
    simpa [hℓ] using hall
  -- ten failures in the window, and the eleventh login goes through
  have hcount : max_failed_logins ≤ count_within Sample.server "a@x.org" ℓ.attempt.now
      Login.unauthorized ((logins Sample.server one_account guesses).take 10) := by
    rw [hnow]
    decide +kernel
  have h429 := ((hlimit 10 ℓ "a@x.org" hℓ haddr).1 hcount).1
  have hlast : ((logins Sample.server one_account guesses)[10]?).map
      (fun ℓ => ℓ.response.status) = some 200 := by
    decide +kernel
  rw [hℓ, Option.map_some, h429] at hlast
  cases hlast

end CounselReady
