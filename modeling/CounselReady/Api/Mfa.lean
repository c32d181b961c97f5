import CounselReady.Api.Deps

/-! # Multi-Factor Routes

    `app.api.mfa`.
-/

namespace CounselReady

open Relational Framework Handler

variable {Token : Type}

def invalid_code : Exc := http_error 401 "Invalid verification code"

def not_enrolled : Exc := http_error 409 "Multi-factor authentication is not enabled"

def mfa_unavailable : Exc :=
  http_error 503 "Multi-factor authentication is not configured on this server"

def already_enabled : Exc := http_error 409 "Multi-factor authentication is already enabled"

/-- `CodeRequest.code`. -/
def code_admitted (code : String) : Bool := length_within 6 64 code

def mfa_status (srv : Server Token) (env : Env) (credentials : Option Token) :
    Handler (Reply Token) := do
  let account ← current_user srv env credentials
  if ← is_mfa_active account.id then do
    let remaining ← remaining_recovery_codes account.id
    pure (.mfa_status true remaining)
  else pure (.mfa_status false 0)

def setup_answer : Exc → Exc
  | .mfa_not_configured => mfa_unavailable
  | .mfa_already_enrolled => already_enabled
  | e => e

def mfa_setup (srv : Server Token) (env : Env) (credentials : Option Token) :
    Handler (Reply Token) := do
  let account ← current_user srv env credentials
  let pending ← (start_enrolment srv env account).rethrow setup_answer
  pure (.mfa_setup pending.provisioning_uri pending.recovery_codes)

def confirm_answer : Exc → Exc
  | .mfa_not_configured => mfa_unavailable
  | .mfa_not_enrolled => http_error 409 "Start setup before confirming"
  | .mfa_already_enrolled => already_enabled
  | .invalid_mfa_code => invalid_code
  | .secret_decryption => invalid_code
  | e => e

def mfa_confirm (srv : Server Token) (env : Env) (credentials : Option Token)
    (code : String) : Handler (Reply Token) := do
  let account ← current_user srv env credentials
  require (code_admitted code) unprocessable
  (confirm_enrolment srv env account code).rethrow confirm_answer
  pure .empty

def verify_answer : Exc → Exc
  | .mfa_not_configured => mfa_unavailable
  | .invalid_mfa_code => invalid_code
  | .mfa_not_enrolled => invalid_code
  | .secret_decryption => invalid_code
  | e => e

/-- Exchange a login challenge plus a code for a session. -/
def mfa_verify (srv : Server Token) (env : Env) (challenge_token : Token) (code : String) :
    Handler (Reply Token) := do
  require (code_admitted code) unprocessable
  require (decide (srv.token_length challenge_token ≤ 2048)) unprocessable
  let user_id ← some_or (decode_mfa_challenge srv challenge_token env.now) invalid_code
  let account ← some_or (← select_one .user_account (fun a : UserAccount =>
    a.id == user_id)) invalid_code
  require account.active invalid_code
  (verify_code_for_login srv env account code).rethrow verify_answer
  let issued ← complete_mfa_login srv env account
  pure (tokens issued)

def disable_answer : Exc → Exc
  | .mfa_not_configured => mfa_unavailable
  | .mfa_not_enrolled => not_enrolled
  | .invalid_mfa_code => invalid_code
  | .secret_decryption => invalid_code
  | e => e

def mfa_disable (srv : Server Token) (env : Env) (credentials : Option Token)
    (password code : String) : Handler (Reply Token) := do
  let account ← current_user srv env credentials
  require (code_admitted code) unprocessable
  require (length_within 0 max_password_length password) unprocessable
  require (verify_password_against srv password account.password_hash) invalid_code
  (verify_code_for_login srv env account code).rethrow disable_answer
  (disable_mfa account).rethrow disable_answer
  pure .empty

end CounselReady
