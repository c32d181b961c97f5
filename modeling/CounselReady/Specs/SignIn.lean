import CounselReady.Framework.Cascade
import CounselReady.Specs.SecondFactor

/-! # What a Sign-In Establishes

    Three routes issue a session. Each returns after inserting one row for the
    account it has authenticated in its own way, or raises.
-/

namespace CounselReady

open Relational Framework Handler Prog

variable {Token : Type} {srv : Server Token} {env : Env} {s : Session}

/-! ### Password sign-in -/

/-- The password is the one of the active account with this address. -/
structure PasswordVerified (srv : Server Token) (db : Database) (email password : String)
    (account : UserAccount) : Prop where
  mem : account ∈ db .user_account
  address : ∃ m, srv.email_str email = some m ∧ account.email = normalize_email srv m
  password : verify_password_against srv password account.password_hash = true
  active : account.active = true

theorem wps_authenticate {email password : String} {Q : Except Exc (SignIn Token) → Session → Prop}
    (herr : ∀ e s', s'.ext = s.ext → Q (.error e) s')
    (haccept : ∀ account ∈ s.db .user_account, account.email = normalize_email srv email →
      verify_password_against srv password account.password_hash = true →
      account.active = true → wps (accept_password srv env (normalize_email srv email) password account) Q s) :
    wps (authenticate srv env email password) Q s := by
  have hrefuse : ∀ (email : String) (account : Option UserAccount),
      wps (refuse_login env email account : Handler (SignIn Token)) Q s := by
    intro email account
    refine wps_bind (wps_execute (fun v => herr _ _ rfl) fun _ => ?_)
    exact (wp_raise _).mpr (herr _ _ rfl)
  refine wps_bind (wps_select_bind ((wp_pure _).mpr ?_))
  refine wps_require_bind (fun _ => herr _ _ rfl) fun _ => ?_
  refine wps_select_one_bind (herr _ _ rfl) (fun _ => hrefuse _ none) fun account hacc hmail _ => ?_
  refine (wp_ite _ _).mpr ⟨fun hmatch => ?_, fun _ => hrefuse _ (some account)⟩
  rw [Bool.and_eq_true] at hmatch
  exact haccept account hacc (by simpa using hmail) hmatch.1 hmatch.2

/-- **Login.** A session is issued to an account without an active second factor;
    to one with it, nothing but a challenge. -/
theorem wps_login_exact {email password : String} {Q : Except Exc (Reply Token) → Session → Prop}
    (herr : ∀ e s', Q (.error e) s')
    (hchallenge : ∀ account s', PasswordVerified srv s.db email password account →
      (∃ m ∈ s.db .user_mfa, UserMfa.user_id m = account.id ∧ m.is_active = true) →
      Rehashed account s.db s'.db →
      Q (.ok (.mfa_challenge (srv.jwt_encode (challenge_claims account.id env.now)))) s')
    (hissued : ∀ account db s', PasswordVerified srv s.db email password account →
      (∀ m ∈ s.db .user_mfa, UserMfa.user_id m = account.id → m.is_active = false) →
      Rehashed account s.db db → s'.db = signed_in_rows srv env account.email account db →
      Q (.ok (tokens (issued_to srv env account))) s') :
    wps (login srv env email password) Q s := by
  refine wps_some_or_bind (fun _ => herr _ _) fun m hm => ?_
  refine wps_require_bind (fun _ => herr _ _) fun _ => ?_
  refine wps_bind ((wp_rethrow _ _).mpr (wps_authenticate (fun _ _ _ => herr _ _) ?_))
  intro account hacc hmail hpassword hactive
  have hverified : PasswordVerified srv s.db email password account :=
    ⟨hacc, ⟨m, hm, hmail⟩, hpassword, hactive⟩
  rw [← hmail]
  refine wps_accept_password_exact (fun _ _ => herr _ _) (fun _ _ => herr _ _) (fun _ => herr _ _)
    ?_ ?_
  · intro s' hre hfactor _
    exact (wp_pure _).mpr (hchallenge account s' hverified hfactor hre)
  · intro db s' hre hnone hdb _
    exact (wp_pure _).mpr (hissued account db s' hverified hnone hre hdb)

theorem wps_login {email password : String} {Q : Except Exc (Reply Token) → Session → Prop}
    (herr : ∀ e s', Q (.error e) s')
    (hchallenge : ∀ account reply s', PasswordVerified srv s.db email password account →
      (∃ m ∈ s.db .user_mfa, UserMfa.user_id m = account.id ∧ m.is_active = true) →
      Rehashed account s.db s'.db → Q (.ok reply) s')
    (hissued : ∀ account reply db s', PasswordVerified srv s.db email password account →
      (∀ m ∈ s.db .user_mfa, UserMfa.user_id m = account.id → m.is_active = false) →
      Rehashed account s.db db → s'.db = signed_in_rows srv env account.email account db →
      Q (.ok reply) s') :
    wps (login srv env email password) Q s :=
  wps_login_exact herr (fun account => hchallenge account _) fun account => hissued account _

/-! ### Sign-in with a challenge and a code -/

theorem wps_mfa_verify_exact {challenge_token : Token} {code : String}
    {Q : Except Exc (Reply Token) → Session → Prop} (herr : ∀ e s', Q (.error e) s')
    (hok : ∀ account db s', account ∈ s.db .user_account → account.active = true →
      decode_mfa_challenge srv challenge_token env.now = some account.id →
      CodeAccepted srv env account code s.db db →
      s'.db = signed_in_rows srv env account.email account db →
      Q (.ok (tokens (issued_to srv env account))) s') :
    wps (mfa_verify srv env challenge_token code) Q s := by
  refine wps_require_bind (fun _ => herr _ _) fun _ => ?_
  refine wps_require_bind (fun _ => herr _ _) fun _ => ?_
  refine wps_some_or_bind (fun _ => herr _ _) fun user_id hdecode => ?_
  refine wps_select_one_bind (herr _ _) (fun _ => ?_) fun account hacc hid _ => ?_
  · exact wps_some_or_bind (fun _ => herr _ _) (fun _ h => by cases h)
  refine wps_some_or_bind (fun _ => herr _ _) fun account' haccount => ?_
  cases haccount
  have hid' : account.id = user_id := by simpa using hid
  subst hid'
  refine wps_require_bind (fun _ => herr _ _) fun hactive => ?_
  refine wps_bind ((wp_rethrow _ _).mpr (wps_verify_code_for_login (fun _ _ => herr _ _) ?_))
  intro db faults haccepted
  refine wps_bind (wps_complete_login_exact (fun _ _ => herr _ _) fun s' hdb _ => ?_)
  exact (wp_pure _).mpr (hok account db s' hacc hactive hdecode haccepted hdb)

theorem wps_mfa_verify {challenge_token : Token} {code : String}
    {Q : Except Exc (Reply Token) → Session → Prop} (herr : ∀ e s', Q (.error e) s')
    (hok : ∀ account reply db s', account ∈ s.db .user_account → account.active = true →
      decode_mfa_challenge srv challenge_token env.now = some account.id →
      CodeAccepted srv env account code s.db db →
      s'.db = signed_in_rows srv env account.email account db → Q (.ok reply) s') :
    wps (mfa_verify srv env challenge_token code) Q s :=
  wps_mfa_verify_exact herr fun account => hok account _

/-! ### Sign-in with a passkey -/

/-- The challenge was on record and unexpired; it is deleted. -/
structure ChallengeTaken (env : Env) (credential : Credential) (db : Database)
    (record : PasskeyChallenge) (db' : Database) : Prop where
  mem : record ∈ db .passkey_challenge
  answered : credential.challenge = some record.challenge
  fresh : env.now < record.expires_at
  result : db' = schema.effect (.remove (schema.doomed db .passkey_challenge record.id)) db

/-- Taking a challenge leaves the other tables as they were. -/
theorem ChallengeTaken.other {credential : Credential} {db db' : Database}
    {record : PasskeyChallenge} (h : ChallengeTaken env credential db record db') {t : Table}
    (hne : t ≠ .passkey_challenge) (ht : schema.Rigid t) : db' t = db t := by
  rw [h.result, Schema.effect_remove_leaf schema_stratified schema_regular.ordered challenge_leaf ht]
  exact List.filter_eq_self.mpr fun r _ => by simp [hne]

/-- Of the challenges, the one taken is left out. -/
theorem ChallengeTaken.left {credential : Credential} {db db' : Database}
    {record : PasskeyChallenge} (h : ChallengeTaken env credential db record db') :
    ∀ r ∈ db' .passkey_challenge, r ∈ db .passkey_challenge ∧
      PasskeyChallenge.id r ≠ record.id := by
  intro r hr
  rw [h.result, Schema.effect_remove_leaf schema_stratified schema_regular.ordered challenge_leaf
    (rigid (by decide))] at hr
  obtain ⟨hold, hne⟩ := List.mem_filter.mp hr
  refine ⟨hold, fun hid => of_decide_eq_true hne ?_⟩
  exact congrArg (Prod.mk Table.passkey_challenge) hid

theorem wps_consume_challenge {credential : Credential}
    {Q : Except Exc Bytes → Session → Prop} (herr : ∀ e s', Q (.error e) s')
    (hok : ∀ record challenge db faults, ChallengeTaken env credential s.db record db →
      srv.base64url_to_bytes record.challenge = some challenge →
      Q (.ok challenge) { s with db := db, faults := faults }) :
    wps (consume_challenge srv env credential) Q s := by
  refine wps_some_or_bind (fun _ => herr _ _) fun presented hpresented => ?_
  refine wps_select_one_bind (herr _ _) (fun _ => ?_) fun record hrecord hmatch _ => ?_
  · exact wps_some_or_bind (fun _ => herr _ _) (fun _ h => by cases h)
  refine wps_some_or_bind (fun _ => herr _ _) fun record' hsame => ?_
  cases hsame
  have hmatch' : PasskeyChallenge.challenge record = presented := by simpa using hmatch
  subst hmatch'
  refine wps_require_bind (fun _ => herr _ _) fun hfresh => ?_
  refine wps_execute_bind (fun _ => herr _ _) fun _ => ?_
  refine wps_some_or.mpr ⟨fun challenge hchallenge => ?_, fun _ => herr _ _⟩
  exact hok record challenge _ _ ⟨hrecord, hpresented, by simpa using hfresh, rfl⟩ hchallenge

theorem wps_verified_bind {α β : Type} {r : Except WebauthnError α} {f : α → Handler β}
    {Q : Except Exc β → Session → Prop} (herr : ∀ e, Q (.error e) s)
    (hok : ∀ a, r = .ok a → wps (f a) Q s) : wps (verified r >>= f) Q s := by
  refine wps_bind ?_
  cases r with
  | ok a => exact (wp_pure _).mpr (hok a rfl)
  | error e => cases e <;> exact (wp_raise _).mpr (herr _)

/-- The assertion verifies under the passkey, and the account is its owner. -/
structure PasskeyVerified (srv : Server Token) (credential : Credential) (challenge : Bytes)
    (db : Database) (passkey : Passkey) (account : UserAccount) (count : Nat) : Prop where
  mem : passkey ∈ db .passkey
  holder : account ∈ db .user_account
  owner : account.id = passkey.user_id
  active : account.active = true
  assertion : srv.webauthn_authentication (relying_party srv) credential challenge
    passkey.public_key passkey.sign_count = .ok count

theorem wps_passkey_login_complete_exact {credential : Credential}
    {Q : Except Exc (Reply Token) → Session → Prop} (herr : ∀ e s', Q (.error e) s')
    (hok : ∀ record challenge db passkey account count s',
      ChallengeTaken env credential s.db record db →
      srv.base64url_to_bytes record.challenge = some challenge →
      PasskeyVerified srv credential challenge db passkey account count →
      s'.db = signed_in_rows srv env account.email account
        (schema.effect (.update .passkey passkey.id (assertion_patch env passkey count)) db) →
      Q (.ok (tokens (issued_to srv env account))) s') :
    wps (passkey_login_complete srv env credential) Q s := by
  refine wps_bind (wps_consume_challenge (fun _ _ => herr _ _) ?_)
  intro record challenge db faults htaken hbytes
  refine wps_some_or_bind (fun _ => herr _ _) fun credential_id _ => ?_
  refine wps_select_one_bind (herr _ _) (fun _ => ?_) fun passkey hpasskey _ _ => ?_
  · exact wps_some_or_bind (fun _ => herr _ _) (fun _ h => by cases h)
  refine wps_some_or_bind (fun _ => herr _ _) fun passkey' hsame => ?_
  cases hsame
  refine wps_select_one_bind (herr _ _) (fun _ => ?_) fun account hacc hid _ => ?_
  · exact wps_some_or_bind (fun _ => herr _ _) (fun _ h => by cases h)
  refine wps_some_or_bind (fun _ => herr _ _) fun account' hsame => ?_
  cases hsame
  refine wps_require_bind (fun _ => herr _ _) fun hactive => ?_
  refine wps_verified_bind (fun _ => herr _ _) fun count hcount => ?_
  refine wps_execute_bind (fun _ => herr _ _) fun _ => ?_
  refine wps_bind (wps_complete_login_exact (fun _ _ => herr _ _) fun s' hdb _ => ?_)
  exact (wp_pure _).mpr (hok record challenge db passkey account count s' htaken hbytes
    ⟨hpasskey, hacc, by simpa using hid, hactive, hcount⟩ hdb)

theorem wps_passkey_login_complete {credential : Credential}
    {Q : Except Exc (Reply Token) → Session → Prop} (herr : ∀ e s', Q (.error e) s')
    (hok : ∀ record challenge db passkey account count reply s',
      ChallengeTaken env credential s.db record db →
      srv.base64url_to_bytes record.challenge = some challenge →
      PasskeyVerified srv credential challenge db passkey account count →
      s'.db = signed_in_rows srv env account.email account
        (schema.effect (.update .passkey passkey.id (assertion_patch env passkey count)) db) →
      Q (.ok reply) s') :
    wps (passkey_login_complete srv env credential) Q s :=
  wps_passkey_login_complete_exact herr fun record challenge db passkey account count =>
    hok record challenge db passkey account count _

/-! ### The other halves of the ceremonies -/

/-- The row of a new challenge. -/
def challenge_row (srv : Server Token) (env : Env) (user_id : Option Uuid) : PasskeyChallenge :=
  ⟨env.uuid 0, user_id, srv.base64url_encode env.challenge, env.now + challenge_ttl⟩

theorem wps_register_begin {credentials : Option Token}
    {Q : Except Exc (Reply Token) → Session → Prop} (herr : ∀ e s', Q (.error e) s')
    (hok : ∀ user_id reply s', s'.db = schema.effect
      (.insert .passkey_challenge (challenge_row srv env user_id)) s.db → Q (.ok reply) s') :
    wps (register_begin srv env credentials) Q s := by
  refine wps_current_user_bind (fun _ => herr _ _) fun auth _ => ?_
  refine wps_select_bind (wps_execute_bind (fun _ => herr _ _) fun _ => ?_)
  exact (wp_pure _).mpr (hok (some auth.account.id) _ _ rfl)

/-- The passkeys a sign-in is offered. -/
def offered (db : Database) (account : Option UserAccount) : List Passkey :=
  match account.filter UserAccount.active with
  | none => []
  | some account => (db .passkey).filter (fun p : Passkey => p.user_id == account.id)

theorem wps_allowed_passkeys_bind {α : Type} {account : Option UserAccount}
    {f : List Passkey → Handler α} {Q : Except Exc α → Session → Prop}
    (h : wps (f (offered s.db account)) Q s) :
    wps (allowed_passkeys (account.filter UserAccount.active) >>= f) Q s := by
  unfold offered at h
  unfold allowed_passkeys
  cases hactive : account.filter UserAccount.active with
  | none =>
    rw [hactive] at h
    exact wps_bind ((wp_pure _).mpr h)
  | some account =>
    rw [hactive] at h
    exact wps_select_bind h

theorem wps_passkey_login_begin {email : String}
    {Q : Except Exc (Reply Token) → Session → Prop} (herr : ∀ e s', Q (.error e) s')
    (hok : ∀ user_id reply s', s'.db = schema.effect
      (.insert .passkey_challenge (challenge_row srv env user_id)) s.db → Q (.ok reply) s') :
    wps (passkey_login_begin srv env email) Q s := by
  refine wps_some_or_bind (fun _ => herr _ _) fun m _ => ?_
  refine wps_bind (wps_select_one (fun _ => ?_) (fun account _ _ _ => ?_) fun _ => herr _ _)
  · refine wps_allowed_passkeys_bind (wps_execute_bind (fun _ => herr _ _) fun _ => ?_)
    exact (wp_pure _).mpr (hok none _ _ rfl)
  · refine wps_allowed_passkeys_bind (wps_execute_bind (fun _ => herr _ _) fun _ => ?_)
    exact (wp_pure _).mpr (hok (some account.id) _ _ rfl)

def added_passkey (env : Env) (account : UserAccount) (registered : RegisteredPasskey)
    (label : Option String) : Passkey :=
  ⟨env.uuid 0, account.id, registered.credential_id, registered.public_key, registered.sign_count,
    registered.backed_up, label, none⟩

/-- **Registration.** A challenge is taken, and a passkey added to the account signed in. -/
theorem wps_register_complete {credentials : Option Token} {credential : Credential}
    {label : Option String} {Q : Except Exc (Reply Token) → Session → Prop}
    (herr : ∀ e s', Q (.error e) s')
    (hok : ∀ auth record challenge registered db s', SignedIn srv env credentials s.db auth →
      ChallengeTaken env credential s.db record db →
      srv.base64url_to_bytes record.challenge = some challenge →
      srv.webauthn_registration (relying_party srv) credential challenge = .ok registered →
      (∀ p ∈ db .passkey, Passkey.id p ≠ env.uuid 0) →
      s'.db = schema.effect (.insert .passkey (added_passkey env auth.account registered label)) db →
      Q (.ok .empty) s') :
    wps (register_complete srv env credentials credential label) Q s := by
  refine wps_current_user_bind (fun _ => herr _ _) fun auth hauth => ?_
  refine wps_require_bind (fun _ => herr _ _) fun _ => ?_
  refine wps_bind (wps_consume_challenge (fun _ _ => herr _ _) ?_)
  intro record challenge db faults htaken hbytes
  refine wps_verified_bind (fun _ => herr _ _) fun registered hregistered => ?_
  refine wps_execute_bind (fun _ => herr _ _) fun hcheck => (wp_pure _).mpr ?_
  have hnew : ∀ p ∈ db .passkey, Passkey.id p ≠ env.uuid 0 :=
    fun p hp => ((Schema.check_insert hcheck).2.1 p hp).1
  exact hok auth record challenge registered db _ hauth htaken hbytes hregistered hnew rfl

end CounselReady
