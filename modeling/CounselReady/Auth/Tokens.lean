import CounselReady.Runtime

/-! # Tokens and Passwords

    `app.auth.tokens` and `app.auth.passwords`: signed access tokens and MFA
    challenges, opaque refresh tokens kept as a digest, and password hashing.
-/

namespace CounselReady

variable {Token : Type}

/-- Microseconds in a second. -/
def second : Nat := 1000000

/-- `int(t.timestamp())`. -/
def timestamp (t : Nat) : Nat := t / second

def access_token_ttl : Nat := 15 * 60 * second

def mfa_challenge_ttl : Nat := 5 * 60 * second

def refresh_token_ttl : Nat := 30 * 24 * 60 * 60 * second

/-! ### Signed tokens -/

structure AccessTokenClaims where
  user_id : Uuid
  session_id : Uuid
  expires_at : Nat
  deriving DecidableEq

def access_claims (user_id session_id : Uuid) (now : Nat) : Payload where
  sub := user_id
  sid := some session_id
  iat := timestamp now
  exp := timestamp (now + access_token_ttl)
  typ := .access

def challenge_claims (user_id : Uuid) (now : Nat) : Payload where
  sub := user_id
  sid := none
  iat := timestamp now
  exp := timestamp (now + mfa_challenge_ttl)
  typ := .mfa_challenge

def issue_access_token (srv : Server Token) (user_id session_id : Uuid) (now : Nat) :
    Handler Token :=
  Handler.sign srv (access_claims user_id session_id now)

def issue_mfa_challenge (srv : Server Token) (user_id : Uuid) (now : Nat) : Handler Token :=
  Handler.sign srv (challenge_claims user_id now)

/-- `none` is `InvalidAccessTokenError`. The `sid` claim is required. -/
def decode_access_token (srv : Server Token) (token : Token) (now : Nat) :
    Option AccessTokenClaims :=
  match srv.jwt_decode token now with
  | none => none
  | some p =>
      match p.sid with
      | none => none
      | some sid =>
          if p.typ = .access then some ⟨p.sub, sid, p.exp * second⟩ else none

/-- `none` is `InvalidChallengeError`. -/
def decode_mfa_challenge (srv : Server Token) (token : Token) (now : Nat) : Option Uuid :=
  match srv.jwt_decode token now with
  | none => none
  | some p => if p.typ = .mfa_challenge then some p.sub else none

/-! ### Refresh tokens -/

/-- `hashlib.sha256(token.encode()).hexdigest()`. -/
def hash_refresh_token (srv : Server Token) (token : String) : String :=
  srv.sha256 token.toUTF8.toList

def refresh_expiry (now : Nat) : Nat := now + refresh_token_ttl

/-! ### Passwords -/

def min_password_length : Nat := 12

def max_password_length : Nat := 256

/-- The message of the `WeakPasswordError`, or `none`. -/
def validate_password (password : String) : Option String :=
  if password.length < min_password_length then
    some "password must be at least 12 characters"
  else if max_password_length < password.length then
    some "password must be at most 256 characters"
  else none

def hash_password (srv : Server Token) (salt password : String) : Handler String :=
  match validate_password password with
  | some message => .raise (.weak_password message)
  | none => pure (srv.argon2_hash salt password)

def verify_password (srv : Server Token) (password password_hash : String) : Bool :=
  srv.argon2_verify password_hash password

/-- The hash is computed for a missing account as well; its result is dropped. -/
def verify_password_against (srv : Server Token) (password : String)
    (password_hash : Option String) : Bool :=
  match password_hash with
  | none =>
      let _ := verify_password srv password srv.dummy_hash
      false
  | some h => verify_password srv password h

/-! ### What decoding accepts -/

theorem decode_access_token_eq_some {srv : Server Token} {token : Token} {now : Nat}
    {c : AccessTokenClaims} :
    decode_access_token srv token now = some c ↔
      ∃ p, srv.jwt_decode token now = some p ∧ p.typ = .access ∧
        p.sub = c.user_id ∧ p.sid = some c.session_id ∧ p.exp * second = c.expires_at := by
  obtain ⟨user_id, session_id, expires_at⟩ := c
  unfold decode_access_token
  cases hdec : srv.jwt_decode token now with
  | none => simp
  | some p =>
    cases hsid : p.sid with
    | none => simp [hsid]
    | some sid =>
      by_cases htyp : p.typ = .access
      · simp [hsid, htyp]
      · simp [hsid, htyp]

theorem decode_mfa_challenge_eq_some {srv : Server Token} {token : Token} {now : Nat}
    {user_id : Uuid} :
    decode_mfa_challenge srv token now = some user_id ↔
      ∃ p, srv.jwt_decode token now = some p ∧ p.typ = .mfa_challenge ∧ p.sub = user_id := by
  unfold decode_mfa_challenge
  cases hdec : srv.jwt_decode token now with
  | none => simp
  | some p =>
    by_cases htyp : p.typ = .mfa_challenge
    · simp [htyp]
    · simp [htyp]

end CounselReady
