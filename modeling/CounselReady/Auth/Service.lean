import CounselReady.Auth.Mfa

/-! # Authentication Service

    `app.auth.service`: registration, password sign-in with its rate limiter,
    sessions, and refresh rotation with replay detection.
-/

namespace CounselReady

open Relational Framework Handler

variable {Token : Type}

def max_failed_logins : Nat := 10

def login_window : Nat := 15 * 60 * second

structure IssuedSession (Token : Type) where
  access_token : Token
  refresh_token : String
  session_id : Uuid
  user : UserAccount

/-- What a sign-in with the right password yields. -/
inductive SignIn (Token : Type) where
  | issued (s : IssuedSession Token)
  | mfa_required (challenge_token : Token) (user_id : Uuid)

def normalize_email (srv : Server Token) (email : String) : String :=
  srv.casefold (strip email)

/-- The handler's own `except IntegrityError`: the session is rolled back and
    the address is reported as taken. -/
def taken (e : Exc) : Exc :=
  match e with
  | .database .integrity => .email_already_registered
  | e => e

def register_account (srv : Server Token) (env : Env) (email password : String)
    (display_name : Option String) : Handler UserAccount := do
  let password_hash ← hash_password srv env.salt password
  let account : UserAccount := {
    id := env.uuid 0, email := normalize_email srv email, display_name := display_name
    active := true, password_hash := some password_hash }
  (insert .user_account account).rethrow taken
  pure account

def failed_attempts_since (email : String) (since : Nat) : Handler Nat := do
  let rows ← select .auth_event (fun e : AuthEvent =>
    e.email == email && e.event_type == .login_failed && decide (since ≤ e.created_at))
  pure rows.length

def record_auth_event (id : Uuid) (now : Nat) (email : String) (user_id : Option Uuid)
    (event_type : AuthEventType) : Handler Unit :=
  insert .auth_event ({
    id := id, created_at := now, email := email, user_id := user_id
    event_type := event_type } : AuthEvent)

def issue_session (srv : Server Token) (env : Env) (account : UserAccount) :
    Handler (IssuedSession Token) := do
  let user_session : UserSession := {
    id := env.uuid 0, user_id := account.id
    refresh_digest := hash_refresh_token srv env.refresh_token
    expires_at := refresh_expiry env.now, revoked_at := none, last_used_at := some env.now }
  insert .user_session user_session
  let access_token ← issue_access_token srv account.id user_session.id env.now
  pure ⟨access_token, env.refresh_token, user_session.id, account⟩

/-- Issue the session and record the sign-in. -/
def complete_login (srv : Server Token) (env : Env) (email : String) (account : UserAccount) :
    Handler (IssuedSession Token) := do
  let issued ← issue_session srv env account
  record_auth_event (env.uuid 1) env.now email (some account.id) .login_succeeded
  pure issued

def complete_mfa_login (srv : Server Token) (env : Env) (account : UserAccount) :
    Handler (IssuedSession Token) :=
  complete_login srv env account.email account

/-- The stored hash is moved forward while the password is at hand. -/
def rehash (srv : Server Token) (env : Env) (account : UserAccount) (password : String) :
    Handler Unit :=
  if srv.argon2_needs_rehash (account.password_hash.getD "") then do
    let password_hash ← hash_password srv env.salt password
    update .user_account account.id (.rehash password_hash)
  else pure ()

/-- The failure is recorded, then raised. -/
def refuse_login (env : Env) (email : String) (account : Option UserAccount) :
    Handler (SignIn Token) := do
  record_auth_event (env.uuid 0) env.now email (account.map UserAccount.id) .login_failed
  .raise .authentication

/-- What the right password leads to: a session, or the demand for a second factor. -/
def accept_password (srv : Server Token) (env : Env) (email password : String)
    (account : UserAccount) : Handler (SignIn Token) := do
  rehash srv env account password
  if ← is_mfa_active account.id then
    let challenge_token ← issue_mfa_challenge srv account.id env.now
    pure (.mfa_required challenge_token account.id)
  else
    let issued ← complete_login srv env email account
    pure (.issued issued)

def authenticate (srv : Server Token) (env : Env) (email password : String) :
    Handler (SignIn Token) := do
  let normalized := normalize_email srv email
  let attempts ← failed_attempts_since normalized (env.now - login_window)
  require (decide (attempts < max_failed_logins)) (.rate_limited login_window)
  let account ← select_one .user_account (fun a : UserAccount => a.email == normalized)
  -- the hash runs even when the account is missing
  let stored_hash := account.bind UserAccount.password_hash
  let is_match := verify_password_against srv password stored_hash
  match account with
  | none => refuse_login env normalized none
  | some account =>
      -- an inactive account is refused like a wrong password
      if is_match && account.active then accept_password srv env normalized password account
      else refuse_login env normalized (some account)

def revoke_session_by_id (env : Env) (session_id : Uuid) : Handler Unit := do
  match ← select_one .user_session (fun s : UserSession => s.id == session_id) with
  | none => pure ()
  | some user_session =>
      -- the time of the first revocation stays
      if user_session.revoked_at.isNone then
        update .user_session user_session.id (.revoke env.now)
      else pure ()

def revoke_session (env : Env) (session_id : Uuid) : Handler Unit :=
  revoke_session_by_id env session_id

/-- The rotation proper: the presented digest is spent, a new one takes over. -/
def rotate (srv : Server Token) (env : Env) (user_session : UserSession)
    (account : UserAccount) (digest : String) : Handler (IssuedSession Token) := do
  insert .used_refresh_token ({
    id := env.uuid 0, session_id := user_session.id, digest := digest } : UsedRefreshToken)
  update .user_session user_session.id
    (.rotate (hash_refresh_token srv env.refresh_token) env.now)
  let access_token ← issue_access_token srv account.id user_session.id env.now
  pure ⟨access_token, env.refresh_token, user_session.id, account⟩

def refresh_session (srv : Server Token) (env : Env) (refresh_token : String) :
    Handler (IssuedSession Token) := do
  let digest := hash_refresh_token srv refresh_token
  match ← select_one .used_refresh_token (fun u : UsedRefreshToken => u.digest == digest) with
  | some replayed =>
      -- rotated away before: revoked in the transaction that the error rolls back
      revoke_session_by_id env replayed.session_id
      .raise .invalid_refresh_token
  | none =>
      let user_session ← some_or (← select_one .user_session (fun s : UserSession =>
        s.refresh_digest == digest)) .invalid_refresh_token
      require (user_session.is_active env.now) .invalid_refresh_token
      let account ← some_or (← select_one .user_account (fun a : UserAccount =>
        a.id == user_session.user_id)) .invalid_refresh_token
      require account.active .invalid_refresh_token
      rotate srv env user_session account digest

/-- The session behind an access token, if it is still live. -/
def load_active_session (env : Env) (session_id : Uuid) : Handler (Option UserSession) := do
  let user_session ← select_one .user_session (fun s : UserSession => s.id == session_id)
  pure (user_session.filter (fun s => s.is_active env.now))

end CounselReady
