import CounselReady.Api.Deps

/-! # Passkey Routes

    `app.api.passkeys`, with the verification calls of `app.auth.passkeys`.
-/

namespace CounselReady

open Relational Framework Handler

variable {Token : Type}

def challenge_ttl : Nat := 5 * 60 * second

def invalid_passkey : Exc := http_error 401 "Passkey could not be verified"

def relying_party (srv : Server Token) : RelyingParty :=
  ⟨srv.webauthn_rp_id, "CounselReady", srv.webauthn_origin⟩

/-- `verify_registration` and `verify_authentication` turn a refusal into an error of their
    own, which is answered with a 401; anything else goes through. -/
def verified {α : Type} : Except WebauthnError α → Handler α
  | .ok a => pure a
  | .error .refused => .raise invalid_passkey
  | .error .other => .raise .unclassified

/-! ### Challenges -/

def store_challenge (srv : Server Token) (env : Env) (user_id : Option Uuid) : Handler Unit :=
  insert .passkey_challenge ({
    id := env.uuid 0, user_id := user_id, challenge := srv.base64url_encode env.challenge
    expires_at := env.now + challenge_ttl } : PasskeyChallenge)

/-- Take the challenge this credential answers, deleting it. -/
def consume_challenge (srv : Server Token) (env : Env) (credential : Credential) :
    Handler Bytes := do
  let presented ← some_or credential.challenge invalid_passkey
  let record ← some_or (← select_one .passkey_challenge (fun c : PasskeyChallenge =>
    c.challenge == presented)) invalid_passkey
  require (decide (env.now < record.expires_at)) invalid_passkey
  -- taken before anything is verified; an error gives it back
  delete .passkey_challenge record.id
  some_or (srv.base64url_to_bytes presented) .value_error

/-! ### Registration -/

def list_passkeys (srv : Server Token) (env : Env) (credentials : Option Token) :
    Handler (Reply Token) := do
  let account ← current_user srv env credentials
  let passkeys ← select .passkey (fun p : Passkey => p.user_id == account.id)
  pure (.passkeys (passkeys.map (fun (p : Passkey) =>
    ⟨p.id, p.label, p.backed_up, p.last_used_at⟩)))

def register_begin (srv : Server Token) (env : Env) (credentials : Option Token) :
    Handler (Reply Token) := do
  let account ← current_user srv env credentials
  let existing ← select .passkey (fun p : Passkey => p.user_id == account.id)
  store_challenge srv env (some account.id)
  pure (.registration_options {
    party := relying_party srv, user_id := account.id, user_name := account.email
    user_display_name := or_else account.display_name account.email
    challenge := env.challenge
    exclude_credentials := existing.map Passkey.credential_id })

def register_complete (srv : Server Token) (env : Env) (credentials : Option Token)
    (credential : Credential) (label : Option String) : Handler (Reply Token) := do
  let account ← current_user srv env credentials
  require (length_at_most 120 label) unprocessable
  let challenge ← consume_challenge srv env credential
  let registered ← verified (srv.webauthn_registration (relying_party srv) credential challenge)
  insert .passkey ({
    id := env.uuid 0, user_id := account.id, credential_id := registered.credential_id
    public_key := registered.public_key, sign_count := registered.sign_count
    backed_up := registered.backed_up, label := label, last_used_at := none } : Passkey)
  pure .empty

/-! ### Sign-in -/

/-- An unknown or inactive account has an empty list. -/
def allowed_passkeys (account : Option UserAccount) : Handler (List Passkey) :=
  match account with
  | none => pure []
  | some account => select Table.passkey (fun p : Passkey => p.user_id == account.id)

def passkey_login_begin (srv : Server Token) (env : Env) (email : String) :
    Handler (Reply Token) := do
  let email ← some_or (srv.email_str email) unprocessable
  let account ← select_one .user_account (fun a : UserAccount =>
    a.email == normalize_email srv email)
  let allowed ← allowed_passkeys (account.filter UserAccount.active)
  -- an unknown address gets a challenge too
  store_challenge srv env (account.map UserAccount.id)
  pure (.authentication_options {
    rp_id := srv.webauthn_rp_id, challenge := env.challenge
    allow_credentials := allowed.map Passkey.credential_id })

/-- The UPDATE of a passkey whose assertion verified. -/
def assertion_patch (env : Env) (passkey : Passkey) (new_count : Nat) : PasskeyPatch :=
  .used (if new_count = passkey.sign_count then none else some new_count) env.now

/-- Exchange an assertion for a session. -/
def passkey_login_complete (srv : Server Token) (env : Env) (credential : Credential) :
    Handler (Reply Token) := do
  let challenge ← consume_challenge srv env credential
  let credential_id ← some_or (credential.id.bind srv.base64url_to_bytes) invalid_passkey
  let passkey ← some_or (← select_one .passkey (fun p : Passkey =>
    p.credential_id == credential_id)) invalid_passkey
  let account ← some_or (← select_one .user_account (fun a : UserAccount =>
    a.id == passkey.user_id)) invalid_passkey
  require account.active invalid_passkey
  let new_count ← verified (srv.webauthn_authentication (relying_party srv) credential challenge
    passkey.public_key passkey.sign_count)
  update .passkey passkey.id (assertion_patch env passkey new_count)
  let issued ← complete_mfa_login srv env account
  pure (tokens issued)

def delete_passkey (srv : Server Token) (env : Env) (credentials : Option Token)
    (passkey_id : Uuid) : Handler (Reply Token) := do
  let account ← current_user srv env credentials
  let passkey ← some_or (← select_one .passkey (fun p : Passkey =>
    p.id == passkey_id && p.user_id == account.id)) (http_error 404 "Passkey not found")
  delete .passkey passkey.id
  pure .empty

end CounselReady
