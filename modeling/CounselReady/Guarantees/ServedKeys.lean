import CounselReady.Sample
import CounselReady.Startup

/-! # The Key of a Deployment that Serves

    Startup asks whether there is a key for the second factors, and the cipher asks
    whether the key is one. A key that is empty or malformed is let through by the
    first and refused by the second, every time somebody enrols.

    * `StoresSecrets`: what a deployment is to do with its key.
    * `served_key_stores`: it does so exactly with a key that Fernet accepts, be it as
      lenient as it likes.
-/

namespace CounselReady

open Relational Framework Handler Prog

variable {Token : Type} {srv : Server Token} {env : Env} {s : Session}

/-! ### What Fernet accepts -/

def is_urlsafe_digit (c : Char) : Bool := c.isAlphanum || c == '-' || c == '_'

/-- Url-safe base64 of 32 bytes: 43 digits of six bits, and the padding. -/
def fernet_key_text (key : String) : Bool :=
  key.toList.length == 44 && (key.toList.take 43).all is_urlsafe_digit &&
    key.toList.getLast? == some '='

/-- What is relied on of Fernet: under a key that it accepts, it decrypts what it encrypted. -/
structure FernetContract (vendor : Vendor Token) : Prop where
  round_trip : ∀ key nonce plain, vendor.fernet_key key = true →
    vendor.fernet_decrypt key (vendor.fernet_encrypt key nonce plain) = some plain

/-- Fernet by the letter. The package also takes a key with characters in it that are no
    digits, and skips them. -/
def StrictFernet (vendor : Vendor Token) : Prop :=
  ∀ key, vendor.fernet_key key = fernet_key_text key

/-! ### Secrets are stored -/

/-- An account without an active second factor can set one up, as far as the key goes, and
    a secret that has been encrypted is decrypted again. -/
structure StoresSecrets (srv : Server Token) : Prop where
  enrols : ∀ env account (s : Session),
    (∀ m ∈ s.db .user_mfa, UserMfa.user_id m = UserAccount.id account → m.is_active = false) →
    ((start_enrolment srv env account).exec (perform schema run_ext) s).1 ≠
      .error .mfa_not_configured
  decrypts : ∀ nonce secret,
    (encrypt_secret srv nonce secret >>= decrypt_secret srv) = (pure secret : Handler String)

/-! ### The cipher -/

theorem cipher_accepts {key : String} (hkey : srv.mfa_encryption_key = some key)
    (hnonempty : key.isEmpty = false) (haccepted : srv.fernet_key key = true) :
    cipher srv = pure key := by
  unfold cipher
  rw [hkey]
  simp only [hnonempty, haccepted]
  rfl

theorem cipher_refuses {key : String} (hkey : srv.mfa_encryption_key = some key)
    (hrefused : ¬ (key.isEmpty = false ∧ srv.fernet_key key = true)) :
    cipher srv = .raise .mfa_not_configured := by
  unfold cipher
  rw [hkey]
  by_cases hempty : key.isEmpty = true
  · exact if_pos hempty
  · have hbad : srv.fernet_key key ≠ true :=
      fun htaken => hrefused ⟨Bool.not_eq_true _ ▸ hempty, htaken⟩
    exact (if_neg hempty).trans (if_neg hbad)

theorem key_text_nonempty {key : String} (h : fernet_key_text key = true) :
    key.isEmpty = false := by
  rw [Bool.eq_false_iff]
  intro hempty
  rw [String.isEmpty_iff.mp hempty] at h
  exact absurd h (by decide)

/-! ### Setting up -/

/-- With a key that is accepted, the failures left are those of the database, and of an
    account that has a second factor already. -/
theorem start_enrolment_configured {key : String} (hcipher : cipher srv = pure key)
    (account : UserAccount) :
    wps (start_enrolment srv env account) (fun r _ => r ≠ .error .mfa_not_configured) s := by
  have hdb : ∀ v : Violation, (.error (.database v) : Except Exc PendingEnrolment) ≠
      .error .mfa_not_configured := nofun
  -- once the secret is encrypted, only a statement can fail
  have htail : ∀ (enrolment : Enrolment) (existing : Option UserMfa) (s : Session),
      wps (do
        store_secret env account existing enrolment.encrypted_secret
        delete_recovery_codes account.id
        insert_all .recovery_code (enrolment.recovery_digests.mapIdx (fun i digest => {
          id := env.uuid (i + 1), user_id := account.id, digest := digest
          used_at := none : RecoveryCode }))
        pure (⟨enrolment.provisioning_uri, enrolment.recovery_codes⟩ : PendingEnrolment))
        (fun r _ => r ≠ .error .mfa_not_configured) s := by
    intro enrolment existing s
    refine wps_bind ?_
    have hcodes : ∀ s, wps (do
        delete_recovery_codes account.id
        insert_all .recovery_code (enrolment.recovery_digests.mapIdx (fun i digest => {
          id := env.uuid (i + 1), user_id := account.id, digest := digest
          used_at := none : RecoveryCode }))
        pure (⟨enrolment.provisioning_uri, enrolment.recovery_codes⟩ : PendingEnrolment))
        (fun r _ => r ≠ .error .mfa_not_configured) s := fun s =>
      wps_bind (wps_bind (wp_select.mpr (wps_delete_all_raises (fun v _ => hdb v) fun s' =>
        wps_bind (wps_insert_all_raises (fun v _ => hdb v) fun s' => (wp_pure _).mpr nofun))))
    cases existing with
    | none => exact wps_execute (fun v => hdb v) fun _ => hcodes _
    | some record => exact wps_execute (fun v => hdb v) fun _ => hcodes _
  have hbegin : begin_enrolment srv env account.email = pure {
      encrypted_secret := srv.fernet_encrypt key env.fernet_nonce env.totp_secret
      provisioning_uri := srv.provisioning_uri env.totp_secret account.email
      recovery_codes := (List.range recovery_code_count).map
        (fun i => generate_recovery_code srv (env.recovery_raw i))
      recovery_digests := ((List.range recovery_code_count).map
        (fun i => generate_recovery_code srv (env.recovery_raw i))).map
          (hash_recovery_code srv) } := by
    unfold begin_enrolment encrypt_secret
    rw [hcipher]
    rfl
  unfold start_enrolment
  rw [hbegin]
  refine wps_select_one_bind nofun (fun _ => ?_) fun m _ _ _ => ?_
  · exact wps_require_bind (fun _ => nofun) fun _ => htail _ _ _
  · exact wps_require_bind (fun _ => nofun) fun _ => htail _ _ _

/-- With a key that is refused, nobody can set up a second factor. -/
theorem start_enrolment_unconfigured (hcipher : cipher srv = .raise .mfa_not_configured)
    {account : UserAccount} (hc : schema.Consistent s.db)
    (hinactive : ∀ m ∈ s.db .user_mfa, UserMfa.user_id m = account.id → m.is_active = false) :
    wps (start_enrolment srv env account) (fun r _ => r = .error .mfa_not_configured) s := by
  have hbegin : begin_enrolment srv env account.email = .raise .mfa_not_configured := by
    unfold begin_enrolment encrypt_secret
    rw [hcipher]
    rfl
  have hone := hc.select_indexed (t := .user_mfa)
    (p := fun m : UserMfa => m.user_id == account.id) fun a b ha hb => by
      rw [beq_iff_eq] at ha hb
      simp [schema, row_clash, ha, hb]
  unfold start_enrolment
  rw [hbegin]
  refine wps_bind (wps_select_one (fun _ => ?_) (fun m hm hid _ => ?_) fun hmany => ?_)
  · exact wps_require_bind (fun h => by cases h) fun _ => (wp_raise _).mpr rfl
  · refine wps_require_bind (fun hactive => ?_) fun _ => (wp_raise _).mpr rfl
    rw [Option.any_some, hinactive m hm (beq_iff_eq.mp hid)] at hactive
    cases hactive
  · exact absurd hone (Nat.not_le.mpr hmany)

/-! ### The guarantee -/

theorem stores_with {key : String} (hcipher : cipher srv = pure key)
    (hround : ∀ nonce plain, srv.fernet_decrypt key (srv.fernet_encrypt key nonce plain) =
      some plain) : StoresSecrets srv where
  enrols env account s _ := by
    have hend : wps (start_enrolment srv env account)
        (fun r _ => r ≠ .error .mfa_not_configured) s := start_enrolment_configured hcipher account
    have hfinal := wp_exec hend (Prod.eta _).symm
    exact hfinal
  decrypts nonce secret := by
    unfold encrypt_secret decrypt_secret
    rw [hcipher]
    show some_or (srv.fernet_decrypt key (srv.fernet_encrypt key nonce secret)) _ = _
    rw [hround]
    rfl

theorem stores_not_without (hcipher : cipher srv = .raise .mfa_not_configured) :
    ¬ StoresSecrets srv := by
  intro h
  have hdecrypts := h.decrypts "" ""
  unfold encrypt_secret at hdecrypts
  rw [hcipher] at hdecrypts
  cases hdecrypts

/-- **The key that is served with.** Outside local development a configuration that passes
    the check stores secrets exactly if its key is not empty and Fernet accepts it, that is,
    for a Fernet by the letter, if it is url-safe base64 of 32 bytes; the check has seen to
    it only that there is one. -/
theorem served_key_stores {vendor : Vendor Token} (hfernet : FernetContract vendor)
    {config : Settings} (hdeployed : config.app_env ≠ .local)
    (haccepted : check_serving_configuration config = .ok ()) :
    (StoresSecrets (config.server vendor) ↔
      ∀ key, config.mfa_encryption_key = some key →
        key.isEmpty = false ∧ vendor.fernet_key key = true) ∧
    (StrictFernet vendor → (StoresSecrets (config.server vendor) ↔
      ∀ key, config.mfa_encryption_key = some key → fernet_key_text key = true)) := by
  have hservable := check_serving_configuration_ok.mp haccepted
  -- a deployment that serves has a key; nothing has looked at it yet
  obtain ⟨key, hkey⟩ := Option.ne_none_iff_exists'.mp (hservable.deployed hdeployed).2.2
  have hserved : (config.server vendor).mfa_encryption_key = some key := hkey
  have hiff : StoresSecrets (config.server vendor) ↔
      ∀ key, config.mfa_encryption_key = some key →
        key.isEmpty = false ∧ vendor.fernet_key key = true := by
    constructor
    · intro hstores key' hkey'
      rw [hkey] at hkey'
      cases hkey'
      by_contra hrefused
      exact stores_not_without (cipher_refuses hserved hrefused) hstores
    · intro hvalid
      obtain ⟨hnonempty, htaken⟩ := hvalid key hkey
      exact stores_with (cipher_accepts hserved hnonempty htaken) fun nonce plain =>
        hfernet.round_trip key nonce plain htaken
  refine ⟨hiff, fun hstrict => hiff.trans ?_⟩
  refine forall_congr' fun key => imp_congr_right fun _ => ?_
  rw [hstrict key]
  exact and_iff_right_of_imp key_text_nonempty

namespace Sample

/-- Fernet by its contract, in so far as the sample deployment goes. -/
def fernet_vendor : Vendor Payload := { vendor with fernet_key := fernet_key_text }

theorem fernet_vendor_contract : FernetContract fernet_vendor := ⟨fun _ _ _ _ => rfl⟩

theorem fernet_vendor_strict : StrictFernet fernet_vendor := fun _ => rfl

/-- Settings that lack nothing. -/
def production (key : String) : Settings where
  app_env := .production
  database_url := some "postgresql+asyncpg://h/db"
  jwt_secret := some "SYNTHETIC_SIGNING_KEY_LONG_ENOUGH_FOR_HS256"
  mfa_encryption_key := some key

end Sample

/-- An empty key is let through, and nobody can enrol with it. -/
theorem empty_key_served :
    FernetContract Sample.fernet_vendor ∧ StrictFernet Sample.fernet_vendor ∧
      (Sample.production "").app_env = .production ∧
      check_serving_configuration (Sample.production "") = .ok () ∧
      ¬ StoresSecrets ((Sample.production "").server Sample.fernet_vendor) ∧
      ∀ env account, ((start_enrolment ((Sample.production "").server Sample.fernet_vendor)
        env account).exec (perform schema run_ext) (Committed.empty.begin env)).1 =
          .error .mfa_not_configured := by
  have hrefuses : cipher ((Sample.production "").server Sample.fernet_vendor) =
      .raise .mfa_not_configured := rfl
  refine ⟨Sample.fernet_vendor_contract, Sample.fernet_vendor_strict, rfl, by decide,
    stores_not_without hrefuses, ?_⟩
  intro env account
  have hempty : ∀ m ∈ (Committed.empty.begin env).db .user_mfa,
      UserMfa.user_id m = account.id → m.is_active = false := nofun
  have hend : wps (start_enrolment ((Sample.production "").server Sample.fernet_vendor) env account)
      (fun r _ => r = .error .mfa_not_configured) (Committed.empty.begin env) :=
    start_enrolment_unconfigured hrefuses Schema.consistent_empty hempty
  have hfinal := wp_exec hend (Prod.eta _).symm
  exact hfinal

/-- A key as `generate_encryption_key` gives one. -/
theorem generated_key_stores :
    StoresSecrets ((Sample.production "MDEyMzQ1Njc4OTAxMjM0NTY3ODkwMTIzNDU2Nzg5MDE=").server
      Sample.fernet_vendor) := by
  refine ((served_key_stores Sample.fernet_vendor_contract (by decide) (by decide)).2
    Sample.fernet_vendor_strict).mpr ?_
  intro key hkey
  cases hkey
  decide

end CounselReady
