import CounselReady.Footprint

/-! # Rules for the Shared Steps

    What the steps that several routes share establish when they return, and
    what they leave behind when they raise: the authentication gate, the
    second-factor check, and sign-in.
-/

namespace CounselReady

open Relational Framework Handler Prog

variable {Token : Type} {srv : Server Token} {env : Env} {s : Session} {β : Type}
  {Q : Except Exc β → Session → Prop}

/-! ### The gate -/

/-- The credentials name a live session, and an active account. -/
structure SignedIn (srv : Server Token) (env : Env) (credentials : Option Token) (db : Database)
    (auth : Authenticated) : Prop where
  token : ∃ token, credentials = some token ∧ ∃ claims,
    decode_access_token srv token env.now = some claims ∧
      claims.user_id = auth.account.id ∧ claims.session_id = auth.session_id
  session : ∃ us ∈ db .user_session, UserSession.id us = auth.session_id ∧
    us.is_active env.now = true
  account : auth.account ∈ db .user_account
  active : auth.account.active = true

theorem wps_authenticated_bind {credentials : Option Token} {f : Authenticated → Handler β}
    (herr : ∀ e, Q (.error e) s)
    (hok : ∀ auth, SignedIn srv env credentials s.db auth → wps (f auth) Q s) :
    wps (authenticated srv env credentials >>= f) Q s := by
  refine wps_bind ?_
  refine wps_some_or_bind (fun _ => herr _) fun token htoken => ?_
  refine wps_some_or_bind (fun _ => herr _) fun claims hclaims => ?_
  refine wps_bind (wps_select_one_bind (herr _) (fun _ => (wp_pure _).mpr ?_)
    fun us hus hid _ => (wp_pure _).mpr ?_)
  · exact wps_require_bind (fun _ => herr _) (fun h => by cases h)
  refine wps_require_bind (fun _ => herr _) fun hlive => ?_
  refine wps_select_one_bind (herr _) (fun _ => ?_) fun account hacc hid' _ => ?_
  · exact wps_some_or_bind (fun _ => herr _) (fun _ h => by cases h)
  refine wps_some_or_bind (fun _ => herr _) fun a ha => ?_
  cases ha
  refine wps_require_bind (fun _ => herr _) fun hactive => ?_
  refine (wp_pure _).mpr (hok ⟨account, claims.session_id⟩ ⟨?_, ?_, hacc, hactive⟩)
  · exact ⟨token, htoken, claims, hclaims, (beq_iff_eq.mp hid').symm, rfl⟩
  · exact ⟨us, hus, by simpa using hid, by simpa using hlive⟩

theorem wps_current_user_bind {credentials : Option Token} {f : UserAccount → Handler β}
    (herr : ∀ e, Q (.error e) s)
    (hok : ∀ auth, SignedIn srv env credentials s.db auth → wps (f auth.account) Q s) :
    wps (current_user srv env credentials >>= f) Q s := by
  refine wps_bind ?_
  exact wps_authenticated_bind (fun _ => herr _) fun auth hauth => (wp_pure _).mpr (hok auth hauth)

theorem wps_is_mfa_active_bind {user_id : Uuid} {f : Bool → Handler β}
    (hmany : Q (.error .multiple_results_found) s)
    (hactive : ∀ m ∈ s.db .user_mfa, UserMfa.user_id m = user_id → m.is_active = true →
      wps (f true) Q s)
    (hinactive : (∀ m ∈ s.db .user_mfa, UserMfa.user_id m = user_id → m.is_active = false) →
      wps (f false) Q s) :
    wps (is_mfa_active user_id >>= f) Q s := by
  refine wps_bind (wps_select_one_bind hmany (fun hnone => (wp_pure _).mpr ?_)
    fun m hm hid hone => (wp_pure _).mpr ?_)
  · refine hinactive fun m hm hid => ?_
    have := hnone m hm
    simp [hid] at this
  · have hid' : UserMfa.user_id m = user_id := by simpa using hid
    cases hact : UserMfa.is_active m with
    | true => simpa [hact] using hactive m hm hid' hact
    | false =>
      have hall : ∀ m' ∈ s.db .user_mfa, UserMfa.user_id m' = user_id → m'.is_active = false := by
        intro m' hm' hid''
        have hmem : m' ∈ (s.db .user_mfa).filter (fun m : UserMfa => m.user_id == user_id) :=
          List.mem_filter.mpr ⟨hm', by simpa using hid''⟩
        rw [hone] at hmem
        rw [List.mem_singleton.mp hmem]
        exact hact
      simpa [hact] using hinactive hall

/-! ### Many rows at once -/

def inserted_all (t : Table) (rows : List (Row t)) (db : Database) : Database :=
  rows.foldl (fun db row => schema.effect (.insert t row) db) db

@[simp] theorem inserted_all_self (t : Table) (rows : List (Row t)) (db : Database) :
    inserted_all t rows db t = db t ++ rows := by
  induction rows generalizing db with
  | nil => exact (List.append_nil _).symm
  | cons row rows ih =>
    have hrow : schema.effect (.insert t row) db t = db t ++ [row] :=
      Schema.effect_insert_self db t row
    refine (ih _).trans ?_
    dsimp only
    rw [hrow, List.append_assoc]
    rfl

theorem inserted_all_ne {t t' : Table} (rows : List (Row t)) (db : Database) (h : t ≠ t') :
    inserted_all t rows db t' = db t' := by
  induction rows generalizing db with
  | nil => rfl
  | cons row rows ih => exact (ih _).trans (Schema.effect_insert_ne _ _ h)

/-- Many statements fail in the database or not at all. -/
theorem wps_insert_all_raises {t : Table} {rows : List (Row t)}
    {Q : Except Exc Unit → Session → Prop} (hdb : ∀ v s', Q (.error (.database v)) s')
    (hok : ∀ s', Q (.ok ()) s') : wps (insert_all t rows) Q s := by
  induction rows generalizing s with
  | nil => exact (wp_pure _).mpr (hok s)
  | cons row rows ih => exact wps_execute_bind (fun v => hdb v _) fun _ => ih

theorem wps_delete_all_raises {t : Table} {ids : List Uuid}
    {Q : Except Exc Unit → Session → Prop} (hdb : ∀ v s', Q (.error (.database v)) s')
    (hok : ∀ s', Q (.ok ()) s') : wps (delete_all t ids) Q s := by
  induction ids generalizing s with
  | nil => exact (wp_pure _).mpr (hok s)
  | cons id ids ih => exact wps_execute_bind (fun v => hdb v _) fun _ => ih

/-- A statement that is due either goes through or meets a fault or a constraint. -/
theorem wps_insert_all {t : Table} {rows : List (Row t)} {Q : Except Exc Unit → Session → Prop}
    (hfault : true ∈ s.faults → ∀ v s', s'.ext = s.ext → Q (.error (.database v)) s')
    (hrefused : ∀ before row after v, rows = before ++ row :: after →
      schema.check (inserted_all t before s.db) (.insert t row) = some v →
      ∀ s', s'.ext = s.ext → Q (.error (.database v)) s')
    (hok : ∀ faults, faults ⊆ s.faults →
      Q (.ok ()) { s with db := inserted_all t rows s.db, faults := faults }) :
    wps (insert_all t rows) Q s := by
  induction rows generalizing s with
  | nil => exact (wp_pure _).mpr (hok s.faults (List.Subset.refl _))
  | cons row rows ih =>
    refine wps_bind (wp_execute_cases (fun hf => ?_) (fun v hv => ?_) fun _ _ => ih ?_ ?_ ?_)
    · exact hfault (List.mem_of_mem_head? hf) _ _ rfl
    · exact hrefused [] row rows v rfl hv _ rfl
    · intro hmem
      exact hfault (List.mem_of_mem_tail hmem)
    · intro before later after v hsplit hchk
      exact hrefused (row :: before) later after v (by rw [hsplit]; rfl) hchk
    · intro faults hsub
      exact hok faults fun x hx => List.mem_of_mem_tail (hsub hx)

/-! ### Sign-in -/

/-- The password column of the account may have moved forward. -/
def Rehashed (account : UserAccount) (db db' : Database) : Prop :=
  db' = db ∨ ∃ h, db' = schema.effect (.update .user_account account.id (.rehash h)) db

theorem Rehashed.other {account : UserAccount} {db db' : Database} (h : Rehashed account db db')
    {t : Table} (ht : .user_account ≠ t) : db' t = db t := by
  rcases h with rfl | ⟨hash, rfl⟩
  · rfl
  · exact Schema.effect_update_ne _ _ _ ht

theorem wps_rehash {account : UserAccount} {password : String}
    {Q : Except Exc Unit → Session → Prop}
    (hweak : ∀ message, Q (.error (.weak_password message)) s)
    (hdb : ∀ v faults, Q (.error (.database v)) { s with faults := faults })
    (hok : ∀ db faults, Rehashed account s.db db →
      Q (.ok ()) { s with db := db, faults := faults }) :
    wps (rehash srv env account password) Q s := by
  unfold rehash
  refine (wp_ite _ _).mpr ⟨fun _ => ?_, fun _ => (wp_pure _).mpr (hok s.db s.faults (.inl rfl))⟩
  refine wps_bind ?_
  unfold hash_password
  cases validate_password password with
  | some message => exact (wp_raise _).mpr (hweak message)
  | none =>
    refine (wp_pure _).mpr (wps_execute (fun v => hdb v _) fun _ => hok _ _ (.inr ⟨_, rfl⟩))

/-- The two rows of a sign-in. -/
def signed_in_rows (srv : Server Token) (env : Env) (email : String) (account : UserAccount)
    (db : Database) : Database :=
  schema.effect (.insert .auth_event
      ⟨env.uuid 1, env.now, email, some account.id, .login_succeeded⟩)
    (schema.effect (.insert .user_session
      ⟨env.uuid 0, account.id, hash_refresh_token srv env.refresh_token, refresh_expiry env.now,
        none, some env.now⟩) db)

/-- What a sign-in hands out. -/
def issued_to (srv : Server Token) (env : Env) (account : UserAccount) : IssuedSession Token where
  access_token := srv.jwt_encode (access_claims account.id (env.uuid 0) env.now)
  refresh_token := env.refresh_token
  session_id := env.uuid 0
  user := account

theorem wps_complete_login_exact {email : String} {account : UserAccount}
    {Q : Except Exc (IssuedSession Token) → Session → Prop}
    (hdb : ∀ v s', Q (.error (.database v)) s')
    (hok : ∀ s', s'.db = signed_in_rows srv env email account s.db →
      s'.ext = { s.ext with
        signed := s.ext.signed ++ [access_claims account.id (env.uuid 0) env.now] } →
      Q (.ok (issued_to srv env account)) s') :
    wps (complete_login srv env email account) Q s := by
  refine wps_bind (wps_execute_bind (fun v => hdb v _) fun _ => ?_)
  refine wps_bind (wps_bind (wp_perform_ext.mpr ((wp_pure _).mpr ((wp_pure _).mpr ?_))))
  refine wps_execute_bind (fun v => hdb v _) fun _ => ?_
  exact (wp_pure _).mpr (hok _ rfl rfl)

theorem wps_complete_login {email : String} {account : UserAccount}
    {Q : Except Exc (IssuedSession Token) → Session → Prop}
    (hdb : ∀ v s', Q (.error (.database v)) s')
    (hok : ∀ issued s', s'.db = signed_in_rows srv env email account s.db →
      s'.ext = { s.ext with
        signed := s.ext.signed ++ [access_claims account.id (env.uuid 0) env.now] } →
      Q (.ok issued) s') :
    wps (complete_login srv env email account) Q s := wps_complete_login_exact hdb (hok _)

/-- A right password ends in a challenge when a second factor is on, and in a
    session when none is. -/
theorem wps_accept_password_exact {email password : String} {account : UserAccount}
    {Q : Except Exc (SignIn Token) → Session → Prop}
    (hweak : ∀ message s', Q (.error (.weak_password message)) s')
    (hdb : ∀ v s', Q (.error (.database v)) s')
    (hmany : ∀ s', Q (.error .multiple_results_found) s')
    (hchallenge : ∀ s', Rehashed account s.db s'.db →
      (∃ m ∈ s.db .user_mfa, UserMfa.user_id m = account.id ∧ m.is_active = true) →
      s'.ext = { s.ext with signed := s.ext.signed ++ [challenge_claims account.id env.now] } →
      Q (.ok (.mfa_required (srv.jwt_encode (challenge_claims account.id env.now)) account.id)) s')
    (hissued : ∀ db s', Rehashed account s.db db →
      (∀ m ∈ s.db .user_mfa, UserMfa.user_id m = account.id → m.is_active = false) →
      s'.db = signed_in_rows srv env email account db →
      s'.ext = { s.ext with
        signed := s.ext.signed ++ [access_claims account.id (env.uuid 0) env.now] } →
      Q (.ok (.issued (issued_to srv env account))) s') :
    wps (accept_password srv env email password account) Q s := by
  refine wps_bind (wps_rehash (fun m => hweak m _) (fun v _ => hdb v _) fun db faults hre => ?_)
  have hmfa : db .user_mfa = s.db .user_mfa := hre.other (by decide)
  refine wps_is_mfa_active_bind (hmany _) (fun m hm hid hact => ?_) fun hnone => ?_
  · refine wps_bind (wps_bind (wp_perform_ext.mpr ((wp_pure _).mpr ((wp_pure _).mpr ?_))))
    exact hchallenge _ hre ⟨m, hmfa ▸ hm, hid, hact⟩ rfl
  · refine wps_bind (wps_complete_login_exact (fun v s' => hdb v s') fun s' hdb' hext => ?_)
    exact (wp_pure _).mpr (hissued db s' hre (hmfa ▸ hnone) hdb' hext)

theorem wps_accept_password {email password : String} {account : UserAccount}
    {Q : Except Exc (SignIn Token) → Session → Prop}
    (hweak : ∀ message s', Q (.error (.weak_password message)) s')
    (hdb : ∀ v s', Q (.error (.database v)) s')
    (hmany : ∀ s', Q (.error .multiple_results_found) s')
    (hchallenge : ∀ s', Rehashed account s.db s'.db →
      (∃ m ∈ s.db .user_mfa, UserMfa.user_id m = account.id ∧ m.is_active = true) →
      s'.ext = { s.ext with signed := s.ext.signed ++ [challenge_claims account.id env.now] } →
      Q (.ok (.mfa_required (srv.jwt_encode (challenge_claims account.id env.now)) account.id)) s')
    (hissued : ∀ issued db s', Rehashed account s.db db →
      (∀ m ∈ s.db .user_mfa, UserMfa.user_id m = account.id → m.is_active = false) →
      s'.db = signed_in_rows srv env email account db →
      s'.ext = { s.ext with
        signed := s.ext.signed ++ [access_claims account.id (env.uuid 0) env.now] } →
      Q (.ok (.issued issued)) s') :
    wps (accept_password srv env email password account) Q s :=
  wps_accept_password_exact hweak hdb hmany hchallenge (hissued _)

/-! ### Requests -/

/-- A request is answered in two ways: its handler returned and was committed,
    or the rows are as they were. -/
theorem serve_wps {env : Env} {req : Request Token} {w : Committed}
    {P : Response Token → Committed → Prop}
    (h : wps (respond srv env req) (settles .commit_failed env.commits (w.met env)
      (fun r w' => P (answer req.route r) w')) (w.begin env)) :
    P (serve srv env req w).1 (serve srv env req w).2 :=
  get_session_wps h

def Response.refuses : Response Token → Prop
  | .success _ _ => False
  | .refused _ => True
  | .internal_server_error => True

theorem answer_error_refuses (route : Route Token) (e : Exc) :
    (answer route (.error e)).refuses := by
  cases e <;> trivial

def Response.succeeded : Response Token → Bool
  | .success _ _ => true
  | _ => false

theorem Response.refuses.not_succeeded {resp : Response Token} (h : resp.refuses) :
    resp.succeeded = false := by
  cases resp <;> first | exact h.elim | rfl

/-- A failing COMMIT is the one difference between the two answers. -/
theorem serve_eq_handler {env : Env} {req : Request Token} {w : Committed}
    (h : env.commits = true) : (serve srv env req w).1 = handler_response srv env req w := by
  unfold serve get_session handler_response
  rw [h, transact_committed]
  rfl

/-- Without a COMMIT there is no success. -/
theorem serve_uncommitted {env : Env} {req : Request Token} {w : Committed}
    (h : env.commits = false) : (serve srv env req w).1.refuses := by
  obtain ⟨e, he⟩ : ∃ e, (get_session env (respond srv env req) w).1 = .error e := by
    unfold get_session
    rw [h]
    exact transact_uncommitted
  unfold serve
  rw [he]
  exact answer_error_refuses _ e

/-- A success is one of the handler that has been committed. -/
theorem serve_success_iff {env : Env} {req : Request Token} {w : Committed} {status : Nat}
    {reply : Reply Token} : (serve srv env req w).1 = .success status reply ↔
      env.commits = true ∧ handler_response srv env req w = .success status reply := by
  cases hcommits : env.commits with
  | true => simp [serve_eq_handler hcommits]
  | false =>
    have hrefuses := @serve_uncommitted _ srv env req w hcommits
    refine iff_of_false (fun hsuccess => ?_) (fun h => Bool.false_ne_true h.1)
    rw [hsuccess] at hrefuses
    exact hrefuses

theorem serve_succeeded_iff {env : Env} {req : Request Token} {w : Committed} :
    (serve srv env req w).1.succeeded = true ↔
      env.commits = true ∧ (handler_response srv env req w).succeeded = true := by
  cases hcommits : env.commits with
  | true => simp [serve_eq_handler hcommits]
  | false => simp [(@serve_uncommitted _ srv env req w hcommits).not_succeeded]

theorem serve_refuses_iff {env : Env} {req : Request Token} {w : Committed} :
    (serve srv env req w).1.refuses ↔
      env.commits = false ∨ (handler_response srv env req w).refuses := by
  cases hcommits : env.commits with
  | true => simp [serve_eq_handler hcommits]
  | false => exact iff_of_true (serve_uncommitted hcommits) (.inl rfl)

theorem sent_eq_handler {answers_first : Bool} {env : Env} {req : Request Token} {w : Committed}
    (h : answers_first = true ∨ env.commits = true) :
    sent answers_first srv env req w = handler_response srv env req w := by
  unfold sent
  cases hfirst : answers_first with
  | true => rfl
  | false =>
    have hcommits : env.commits = true := h.resolve_left (by simp [hfirst])
    exact serve_eq_handler hcommits

/-- What the handler answers is what its program ends with. -/
theorem handler_wps {env : Env} {req : Request Token} {w : Committed} {P : Response Token → Prop}
    (h : wps (respond srv env req) (fun r _ => P (answer req.route r)) (w.begin env)) :
    P (handler_response srv env req w) :=
  wp_exec h rfl

theorem succeeded_error (route : Route Token) (e : Exc) :
    (answer route (.error e)).succeeded = false := by
  cases e <;> rfl

/-- The routes behind the gate. -/
def Route.guarded : Route Token → Bool
  | .register _ _ _ => false
  | .login _ _ => false
  | .refresh _ => false
  | .mfa_verify _ _ => false
  | .passkey_login_begin _ => false
  | .passkey_login_complete _ => false
  | _ => true

/-- A guarded route does nothing before the gate. -/
theorem respond_guarded {req : Request Token} (h : req.route.guarded = true) :
    ∃ f, respond srv env req = authenticated srv env req.credentials >>= f := by
  have hcur : ∀ (f : UserAccount → Handler (Reply Token)),
      (current_user srv env req.credentials >>= f) =
        authenticated srv env req.credentials >>= fun auth => f auth.account := by
    intro f
    exact bind_assoc _ _ _
  obtain ⟨credentials, route⟩ := req
  cases route
  case register => cases h
  case login => cases h
  case refresh => cases h
  case mfa_verify => cases h
  case passkey_login_begin => cases h
  case passkey_login_complete => cases h
  case logout => exact ⟨_, rfl⟩
  all_goals exact ⟨_, hcur _⟩

/-! ### Rotation -/

/-- One exchange of a refresh token: the session it belonged to was live, the
    digest is spent, and a new one has taken its place. -/
structure Rotation (srv : Server Token) (env : Env) (refresh_token : String) (db : Database)
    (us : UserSession) (db' : Database) : Prop where
  mem : us ∈ db .user_session
  digest : us.refresh_digest = hash_refresh_token srv refresh_token
  active : us.is_active env.now = true
  unused : ∀ u ∈ db .used_refresh_token,
    UsedRefreshToken.digest u ≠ hash_refresh_token srv refresh_token
  result : db' = schema.effect
    (.update .user_session us.id (.rotate (hash_refresh_token srv env.refresh_token) env.now))
    (schema.effect (.insert .used_refresh_token
      ⟨env.uuid 0, us.id, hash_refresh_token srv refresh_token⟩) db)

theorem wps_refresh_session {refresh_token : String}
    {Q : Except Exc (IssuedSession Token) → Session → Prop}
    (herr : ∀ e s', Q (.error e) s')
    (hok : ∀ us issued s', Rotation srv env refresh_token s.db us s'.db →
      issued.session_id = us.id → Q (.ok issued) s') :
    wps (refresh_session srv env refresh_token) Q s := by
  refine wps_select_one_bind (herr _ _) (fun hunused => ?_) fun replayed _ _ _ => ?_
  · refine wps_select_one_bind (herr _ _) (fun _ => ?_) fun us hus hdig _ => ?_
    · exact wps_some_or_bind (fun _ => herr _ _) (fun _ h => by cases h)
    refine wps_some_or_bind (fun _ => herr _ _) fun us' hus' => ?_
    cases hus'
    refine wps_require_bind (fun _ => herr _ _) fun hactive => ?_
    refine wps_select_one_bind (herr _ _) (fun _ => ?_) fun account _ _ _ => ?_
    · exact wps_some_or_bind (fun _ => herr _ _) (fun _ h => by cases h)
    refine wps_some_or_bind (fun _ => herr _ _) fun a _ => ?_
    refine wps_require_bind (fun _ => herr _ _) fun _ => ?_
    refine wps_execute_bind (fun _ => herr _ _) fun _ => ?_
    refine wps_execute_bind (fun _ => herr _ _) fun _ => ?_
    refine wps_bind (wps_bind (wp_perform_ext.mpr ((wp_pure _).mpr ((wp_pure _).mpr ?_))))
    refine hok us _ _ ⟨hus, by simpa using hdig, hactive, ?_, rfl⟩ rfl
    intro u hu heq
    have := hunused u hu
    simp [heq] at this
  · refine wps_bind (wps_select_one_bind (herr _ _) (fun _ => ?_) fun us _ _ _ => ?_)
    · exact (wp_pure _).mpr ((wp_raise _).mpr (herr _ _))
    · refine (wp_ite _ _).mpr ⟨fun _ => ?_, fun _ => ?_⟩
      · exact wps_execute (fun _ => herr _ _) fun _ => (wp_raise _).mpr (herr _ _)
      · exact (wp_pure _).mpr ((wp_raise _).mpr (herr _ _))

/-- **Refresh.** A refresh is answered with tokens after a rotation, or refused
    with the rows as they were: what the replay branch wrote is rolled back. -/
theorem serve_refresh (srv : Server Token) (env : Env) (credentials : Option Token)
    (refresh_token : String) (w : Committed) :
    (∃ us, Rotation srv env refresh_token w.db us
        (serve srv env ⟨credentials, .refresh refresh_token⟩ w).2.db) ∨
      ((serve srv env ⟨credentials, .refresh refresh_token⟩ w).1.refuses ∧
        (serve srv env ⟨credentials, .refresh refresh_token⟩ w).2.db = w.db) := by
  let P : Response Token → Committed → Prop := fun resp w' =>
    (∃ us, Rotation srv env refresh_token w.db us w'.db) ∨ (resp.refuses ∧ w'.db = w.db)
  have hP : P (serve srv env ⟨credentials, .refresh refresh_token⟩ w).1
      (serve srv env ⟨credentials, .refresh refresh_token⟩ w).2 := by
    apply serve_wps
    refine wps_require_bind (fun _ => .inr ⟨trivial, rfl⟩) fun _ => ?_
    refine wps_bind ((wp_rethrow _ _).mpr (wps_refresh_session ?_ ?_))
    · intro e s'
      exact .inr ⟨answer_error_refuses _ _, rfl⟩
    · intro us issued s' hrot _
      refine (wp_pure _).mpr ⟨fun _ => .inl ⟨us, hrot⟩, fun _ => .inr ⟨trivial, rfl⟩⟩
  exact hP

end CounselReady
