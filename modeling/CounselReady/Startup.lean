import CounselReady.Vendor

/-! # Configuration and Startup

    `app.core.config` and `app.main`: the settings of a deployment, and what is
    checked of them before it serves.
-/

namespace CounselReady

variable {Token : Type}

inductive AppEnv where
  | «local»
  | staging
  | production
  deriving DecidableEq

def AppEnv.value : AppEnv → String
  | .local => "local"
  | .staging => "staging"
  | .production => "production"

structure Settings where
  app_env : AppEnv := .local
  database_url : Option String := none
  jwt_secret : Option String := none
  mfa_encryption_key : Option String := none
  webauthn_rp_id : String := "localhost"
  webauthn_origin : String := "http://localhost:5173"
  web_concurrency : Int := 1

/-- The server that runs on these settings. -/
def Settings.server (config : Settings) (vendor : Vendor Token) : Server Token :=
  { vendor with
    mfa_encryption_key := config.mfa_encryption_key
    webauthn_rp_id := config.webauthn_rp_id
    webauthn_origin := config.webauthn_origin }

def min_jwt_secret_length : Nat := 32

/-- An error is the text of a `StartupConfigurationError`. -/
def check_serving_configuration (config : Settings) : Except String Unit :=
  if config.app_env ≠ .local ∧ config.database_url = none then
    .error ("DATABASE_URL must be set when APP_ENV=" ++ config.app_env.value)
  else if config.jwt_secret.any (fun secret => decide (secret.length < min_jwt_secret_length)) then
    .error ("JWT_SECRET must be at least " ++ Nat.repr min_jwt_secret_length ++ " characters")
  else if config.app_env ≠ .local ∧ config.mfa_encryption_key = none then
    .error ("MFA_ENCRYPTION_KEY must be set when APP_ENV=" ++ config.app_env.value)
  else if config.jwt_secret = none then
    if config.app_env ≠ .local then
      .error ("JWT_SECRET must be set when APP_ENV=" ++ config.app_env.value)
    else if 1 < config.web_concurrency then
      .error "JWT_SECRET must be set when running more than one worker"
    else .ok ()
  else .ok ()

/-- What is demanded of settings that are accepted. -/
structure Servable (config : Settings) : Prop where
  deployed : config.app_env ≠ .local → config.database_url ≠ none ∧ config.jwt_secret ≠ none ∧
    config.mfa_encryption_key ≠ none
  long_secret : ∀ secret, config.jwt_secret = some secret → min_jwt_secret_length ≤ secret.length
  one_worker : config.jwt_secret = none → config.web_concurrency ≤ 1

theorem check_serving_configuration_ok {config : Settings} :
    check_serving_configuration config = .ok () ↔ Servable config := by
  have hshort : (config.jwt_secret.any
      (fun secret => decide (secret.length < min_jwt_secret_length)) = true) ↔
      ∃ secret, config.jwt_secret = some secret ∧ secret.length < min_jwt_secret_length := by
    simp [Option.any_eq_true]
  unfold check_serving_configuration
  constructor
  · -- the checks in order: each one that passes rules out what it would have refused
    intro h
    split at h
    · cases h
    next hurl =>
    split at h
    · cases h
    next hlength =>
    split at h
    · cases h
    next hkey =>
    rw [hshort] at hlength
    have hlong : ∀ secret, config.jwt_secret = some secret →
        min_jwt_secret_length ≤ secret.length :=
      fun secret hsecret => Nat.not_lt.mp fun hlt => hlength ⟨secret, hsecret, hlt⟩
    split at h
    · next hnone =>
      split at h
      · cases h
      next henv =>
      split at h
      · cases h
      next hworkers =>
      exact ⟨fun hdeployed => absurd hdeployed henv, hlong, fun _ => Int.not_lt.mp hworkers⟩
    · next hsome =>
      exact ⟨fun hdeployed => ⟨fun hn => hurl ⟨hdeployed, hn⟩, hsome,
        fun hn => hkey ⟨hdeployed, hn⟩⟩, hlong, fun hnone => absurd hnone hsome⟩
  · intro h
    have hlength : ¬ ∃ secret, config.jwt_secret = some secret ∧
        secret.length < min_jwt_secret_length :=
      fun ⟨secret, hsecret, hlt⟩ => absurd hlt (Nat.not_lt.mpr (h.long_secret secret hsecret))
    rw [if_neg fun hurl => (h.deployed hurl.1).1 hurl.2, if_neg (hshort.not.mpr hlength),
      if_neg fun hkey => (h.deployed hkey.1).2.2 hkey.2]
    by_cases hnone : config.jwt_secret = none
    · rw [if_pos hnone, if_neg fun henv => (h.deployed henv).2.1 hnone,
        if_neg (Int.not_lt.mpr (h.one_worker hnone))]
    · rw [if_neg hnone]

end CounselReady
