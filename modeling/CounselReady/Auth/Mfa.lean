import CounselReady.Auth.Tokens

/-! # Multi-Factor Authentication

    `app.auth.mfa` and `app.auth.mfa_service`: TOTP codes, recovery codes, and
    the life of one enrolment (set up, confirm, consume, disable).
-/

namespace CounselReady

open Relational Framework Handler

variable {Token : Type}

/-! ### Secrets and codes -/

def recovery_code_count : Nat := 10

def valid_window : Nat := 1

def totp_interval_seconds : Nat := 30

/-- `_cipher`: the key when Fernet accepts it. -/
def cipher (srv : Server Token) : Handler String :=
  match srv.mfa_encryption_key with
  | none => .raise .mfa_not_configured
  | some key =>
      if key.isEmpty then .raise .mfa_not_configured
      else if srv.fernet_key key then pure key
      else .raise .mfa_not_configured

def encrypt_secret (srv : Server Token) (nonce secret : String) : Handler String := do
  let key ← cipher srv
  pure (srv.fernet_encrypt key nonce secret)

def decrypt_secret (srv : Server Token) (encrypted : String) : Handler String := do
  let key ← cipher srv
  some_or (srv.fernet_decrypt key encrypted) .secret_decryption

/-- `raw` is the hexadecimal drawn by `secrets.token_hex`. -/
def generate_recovery_code (srv : Server Token) (raw : String) : String :=
  let raw := (srv.upper raw).toList
  String.ofList (raw.take 5 ++ '-' :: (raw.drop 5).take 5 ++ '-' :: (raw.drop 10).take 5 ++
    '-' :: (raw.drop 15).take 5)

def normalize_recovery_code (srv : Server Token) (code : String) : String :=
  without ' ' (without '-' (srv.upper (strip code)))

def hash_recovery_code (srv : Server Token) (code : String) : String :=
  srv.sha256 (normalize_recovery_code srv code).toUTF8.toList

structure Enrolment where
  encrypted_secret : String
  provisioning_uri : String
  recovery_codes : List String
  recovery_digests : List String

def begin_enrolment (srv : Server Token) (env : Env) (email : String) : Handler Enrolment := do
  let codes := (List.range recovery_code_count).map
    (fun i => generate_recovery_code srv (env.recovery_raw i))
  let encrypted ← encrypt_secret srv env.fernet_nonce env.totp_secret
  pure {
    encrypted_secret := encrypted
    provisioning_uri := srv.provisioning_uri env.totp_secret email
    recovery_codes := codes
    recovery_digests := codes.map (hash_recovery_code srv) }

def counter_for (timestamp : Nat) : Int := (timestamp / totp_interval_seconds : Nat)

def is_ascii (s : String) : Bool := s.toList.all (fun c => decide (c.toNat < 128))

/-- `secrets.compare_digest` on two strings. -/
def compare_digest (a b : String) : Handler Bool :=
  if is_ascii a && is_ascii b then pure (a == b) else .raise .type_error

/-- The first of the steps whose code is the one presented. -/
def first_matching (srv : Server Token) (secret cleaned : String) :
    List Int → Handler (Option Int)
  | [] => pure none
  | step :: steps => do
      if ← compare_digest (srv.totp_at secret step) cleaned then pure (some step)
      else first_matching srv secret cleaned steps

/-- `str.isdigit`. -/
def is_digit_str (srv : Server Token) (s : String) : Bool :=
  !s.isEmpty && s.toList.all srv.is_digit

/-- `range(-VALID_WINDOW, VALID_WINDOW + 1)`. -/
def window_offsets : List Int :=
  (List.range (2 * valid_window + 1)).map (fun i => (i : Int) - valid_window)

theorem window_steps (current : Int) :
    window_offsets.map (fun offset => current + offset) = [current - 1, current, current + 1] := by
  have hoffsets : window_offsets = [-1, 0, 1] := by decide
  rw [hoffsets]
  simp [Int.sub_eq_add_neg]

def matching_counter (srv : Server Token) (secret code : String) (timestamp : Nat) :
    Handler (Option Int) :=
  let cleaned := without ' ' (strip code)
  if is_digit_str srv cleaned then
    let current := counter_for timestamp
    first_matching srv secret cleaned (window_offsets.map fun offset => current + offset)
  else pure none

/-! ### One enrolment -/

def load_mfa (user_id : Uuid) : Handler (Option UserMfa) :=
  select_one .user_mfa (fun m : UserMfa => m.user_id == user_id)

def is_mfa_active (user_id : Uuid) : Handler Bool := do
  let record ← load_mfa user_id
  pure (record.any UserMfa.is_active)

/-- `for stale in ...: session.delete(stale)`, flushed together. -/
def delete_all (t : Table) : List Uuid → Handler Unit
  | [] => pure ()
  | id :: ids => do
      delete t id
      delete_all t ids

def delete_recovery_codes (user_id : Uuid) : Handler Unit := do
  let codes ← select .recovery_code (fun c : RecoveryCode => c.user_id == user_id)
  delete_all .recovery_code (codes.map RecoveryCode.id)

structure PendingEnrolment where
  provisioning_uri : String
  recovery_codes : List String
  deriving DecidableEq

/-- An unconfirmed record is overwritten, a missing one created. -/
def store_secret (env : Env) (account : UserAccount) (existing : Option UserMfa)
    (encrypted_secret : String) : Handler Unit :=
  match existing with
  | some record => update .user_mfa record.id
      (.restart encrypted_secret record.last_used_counter.isSome)
  | none => insert .user_mfa {
      id := env.uuid 0, user_id := account.id, encrypted_secret := encrypted_secret
      confirmed_at := none, last_used_counter := none : UserMfa }

/-- The UPDATE or INSERT is flushed by the SELECT of the recovery codes. -/
def start_enrolment (srv : Server Token) (env : Env) (account : UserAccount) :
    Handler PendingEnrolment := do
  let existing ← load_mfa account.id
  require (!existing.any UserMfa.is_active) .mfa_already_enrolled
  let enrolment ← begin_enrolment srv env account.email
  store_secret env account existing enrolment.encrypted_secret
  delete_recovery_codes account.id
  insert_all .recovery_code (enrolment.recovery_digests.mapIdx (fun i digest => {
    id := env.uuid (i + 1), user_id := account.id, digest := digest
    used_at := none : RecoveryCode }))
  pure ⟨enrolment.provisioning_uri, enrolment.recovery_codes⟩

def confirm_enrolment (srv : Server Token) (env : Env) (account : UserAccount)
    (code : String) : Handler Unit := do
  let record ← some_or (← load_mfa account.id) .mfa_not_enrolled
  require (!record.is_active) .mfa_already_enrolled
  let secret ← decrypt_secret srv record.encrypted_secret
  let step ← some_or (← matching_counter srv secret code (timestamp env.now)) .invalid_mfa_code
  update .user_mfa record.id (.confirm env.now step)

def consume_recovery_code (srv : Server Token) (env : Env) (account : UserAccount)
    (code : String) : Handler Unit := do
  let digest := hash_recovery_code srv code
  let recovery ← some_or (← select_one .recovery_code (fun c : RecoveryCode =>
    c.user_id == account.id && c.digest == digest)) .invalid_mfa_code
  require recovery.used_at.isNone .invalid_mfa_code
  update .recovery_code recovery.id (.use env.now)

def verify_code_for_login (srv : Server Token) (env : Env) (account : UserAccount)
    (code : String) : Handler Unit := do
  let record ← some_or (← load_mfa account.id) .mfa_not_enrolled
  require record.is_active .mfa_not_enrolled
  let secret ← decrypt_secret srv record.encrypted_secret
  match ← matching_counter srv secret code (timestamp env.now) with
  | some step =>
      -- replay inside the validity window
      require (record.last_used_counter.all (fun last => decide (last < step)))
        .invalid_mfa_code
      update .user_mfa record.id (.consume step)
  | none => consume_recovery_code srv env account code

def remaining_recovery_codes (user_id : Uuid) : Handler Nat := do
  let codes ← select .recovery_code (fun c : RecoveryCode =>
    c.user_id == user_id && c.used_at.isNone)
  pure codes.length

def disable_mfa (account : UserAccount) : Handler Unit := do
  let record ← some_or (← load_mfa account.id) .mfa_not_enrolled
  require record.is_active .mfa_not_enrolled
  -- `session.delete(record)` is flushed by the SELECT that follows
  delete .user_mfa record.id
  delete_recovery_codes account.id

end CounselReady
