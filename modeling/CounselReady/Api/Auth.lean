import CounselReady.Api.Deps
import CounselReady.Auth.Deletion

/-! # Authentication Routes

    `app.api.auth`. Dependencies run before the body is validated.
-/

namespace CounselReady

open Relational Framework Handler

variable {Token : Type}

def invalid_credentials : Exc := http_error 401 "Invalid email or password"

def invalid_refresh : Exc := http_error 401 "Session is no longer valid"

def account_response (account : UserAccount) : AccountResponse :=
  ⟨account.id, account.email, account.display_name⟩

/-! ### Registration and sign-in -/

def register_answer : Exc → Exc
  | .weak_password message => http_error 422 message
  | .email_already_registered => http_error 409 "Email is already registered"
  | e => e

def register (srv : Server Token) (env : Env) (email password : String)
    (display_name : Option String) : Handler (Reply Token) := do
  let email ← some_or (srv.email_str email) unprocessable
  require (length_within min_password_length max_password_length password) unprocessable
  require (length_at_most 200 display_name) unprocessable
  let account ← (register_account srv env email password display_name).rethrow register_answer
  pure (.account (account_response account))

def login_answer : Exc → Exc
  | .rate_limited retry_after =>
      .http ⟨429, .text "Too many sign-in attempts. Try again later.",
        [("Retry-After", Nat.repr (retry_after / second))]⟩
  | .authentication => invalid_credentials
  | e => e

def login_reply : SignIn Token → Reply Token
  | .mfa_required challenge_token _ => .mfa_challenge challenge_token
  | .issued issued => tokens issued

def login (srv : Server Token) (env : Env) (email password : String) :
    Handler (Reply Token) := do
  let email ← some_or (srv.email_str email) unprocessable
  require (length_within 0 max_password_length password) unprocessable
  let signed_in ← (authenticate srv env email password).rethrow login_answer
  pure (login_reply signed_in)

def refresh_answer : Exc → Exc
  | .invalid_refresh_token => invalid_refresh
  | e => e

def refresh (srv : Server Token) (env : Env) (refresh_token : String) :
    Handler (Reply Token) := do
  require (length_within 0 512 refresh_token) unprocessable
  let issued ← (refresh_session srv env refresh_token).rethrow refresh_answer
  pure (tokens issued)

/-! ### Signing out -/

def logout (srv : Server Token) (env : Env) (credentials : Option Token) :
    Handler (Reply Token) := do
  let auth ← authenticated srv env credentials
  revoke_session env auth.session_id
  pure .empty

def me (srv : Server Token) (env : Env) (credentials : Option Token) : Handler (Reply Token) := do
  let account ← current_user srv env credentials
  pure (.account (account_response account))

def revoke_all (env : Env) : List UserSession → Handler Unit
  | [] => pure ()
  | user_session :: rest => do
      update .user_session user_session.id (.revoke env.now)
      revoke_all env rest

def logout_everywhere (srv : Server Token) (env : Env) (credentials : Option Token) :
    Handler (Reply Token) := do
  let account ← current_user srv env credentials
  let sessions ← select .user_session (fun s : UserSession =>
    s.user_id == account.id && s.revoked_at.isNone)
  revoke_all env sessions
  pure .empty

/-! ### Deletion -/

/-- Every exception of the code check is answered the same way. -/
def code_refused : Exc → Exc := fun _ => http_error 401 "Invalid verification code"

/-- Password, and the second factor when there is one. -/
def reauthenticate (srv : Server Token) (env : Env) (account : UserAccount) (password : String)
    (mfa_code : Option String) : Handler Unit := do
  require (verify_password_against srv password account.password_hash) invalid_credentials
  if ← is_mfa_active account.id then do
    let code ← some_or mfa_code
      (http_error 401 "A verification code is required to delete your account.")
    (verify_code_for_login srv env account code).rethrow code_refused

/-- The objects go before the session of the request has committed. -/
def destroy (account : UserAccount) : Handler (Reply Token) := do
  let keys ← collect_storage_keys account.id
  let summary ← delete_account account
  let removed ← purge_objects keys
  pure (.deletion summary.cases summary.documents removed)

def delete_own_account (srv : Server Token) (env : Env) (credentials : Option Token)
    (password : String) (mfa_code : Option String) (acknowledge : Bool) :
    Handler (Reply Token) := do
  let account ← current_user srv env credentials
  require (length_within 0 max_password_length password) unprocessable
  require (length_at_most 64 mfa_code) unprocessable
  require acknowledge (http_error 422 "Confirm that you understand this cannot be undone.")
  reauthenticate srv env account password mfa_code
  destroy account

end CounselReady
