import CounselReady.Guarantees.ColumnWidths
import CounselReady.Guarantees.LoginRateLimit
import CounselReady.Guarantees.SecondFactor

/-! # The Registered Password

    An account's password is the one it was registered with, from its registration
    to its deletion: a hash is moved forward only at a login, while the password is
    at hand. A login with it is let in and a login with any other is a 401, however
    many there have been.

    * `AccountFrom`, `accounts_step`: where an account of the state after a step
      comes from.
    * `Registered`: the invariant, carried by `AccountFrom`.
    * `all_succeeded`: no failed login is ever on record, so the limiter is idle.
-/

namespace CounselReady

open Relational Framework Handler Prog

variable {Token : Type} {srv : Server Token} {env : Env}

/-- What `PasswordHasher` does for the passwords that are ever given: a hash verifies for
    the password it was made of and for no other of them, and fits its column. -/
structure Argon2 (srv : Server Token) (given : String → Prop) : Prop where
  verifies : ∀ salt password, srv.argon2_verify (srv.argon2_hash salt password) password = true
  apart : ∀ salt password q, given password → given q →
    srv.argon2_verify (srv.argon2_hash salt password) q = true → q = password
  short : ∀ salt password, given password → (srv.argon2_hash salt password).length ≤ 255

/-- The password a step gives to be hashed or verified at a sign-in. -/
def Step.password : Step Token → Option String
  | .request _ ⟨_, .register _ password _⟩ => some password
  | .request _ ⟨_, .login _ password⟩ => some password
  | _ => none

/-- Every password of the run is one of those. -/
def Gives (past : List (Step Token × Committed)) (given : String → Prop) : Prop :=
  ∀ p ∈ past, ∀ password, p.1.password = some password → given password

/-! ### Where an account comes from -/

/-- The account that a registration adds. -/
def new_account (srv : Server Token) (env : Env) (m password : String)
    (display_name : Option String) : UserAccount where
  id := env.uuid 0
  email := normalize_email srv m
  display_name := display_name
  active := true
  password_hash := some (srv.argon2_hash env.salt password)

/-- An account after a step: it was there, or is new, or has a new hash of a password
    that its old hash verifies for. -/
inductive AccountFrom (srv : Server Token) (db : Database) : Step Token → UserAccount → Prop where
  | kept {s : Step Token} {a : UserAccount} (mem : a ∈ db .user_account) : AccountFrom srv db s a
  | registered {env : Env} {credentials : Option Token} {email m password : String}
      {display_name : Option String} (address : srv.email_str email = some m)
      (length : length_within min_password_length max_password_length password = true) :
      AccountFrom srv db (.request env ⟨credentials, .register email password display_name⟩)
        (new_account srv env m password display_name)
  | rehashed {env : Env} {credentials : Option Token} {email password : String} {a : UserAccount}
      (mem : a ∈ db .user_account)
      (verified : verify_password_against srv password a.password_hash = true) :
      AccountFrom srv db (.request env ⟨credentials, .login email password⟩)
        { a with password_hash := some (srv.argon2_hash env.salt password) }

section steps
variable {w : Committed}

theorem accounts_register {credentials : Option Token} {email password : String}
    {display_name : Option String} : ∀ a ∈ (serve srv env
      ⟨credentials, .register email password display_name⟩ w).2.db .user_account,
    AccountFrom srv w.db (.request env ⟨credentials, .register email password display_name⟩) a := by
  let P : Committed → Prop := fun w' => ∀ a ∈ w'.db .user_account,
    AccountFrom srv w.db (.request env ⟨credentials, .register email password display_name⟩) a
  have h0 : ∀ ext, P ⟨w.db, ext⟩ := fun _ a ha => .kept ha
  refine @serve_wps Token srv env ⟨credentials, .register email password display_name⟩ w
    (fun _ w' => P w') ?_
  refine wps_some_or_bind (fun _ => h0 _) fun m hm => ?_
  refine wps_require_bind (fun _ => h0 _) fun hlength => ?_
  refine wps_require_bind (fun _ => h0 _) fun _ => ?_
  refine wps_bind ((wp_rethrow _ _).mpr ?_)
  unfold register_account hash_password
  rw [validate_password_of_length hlength]
  refine wps_bind ((wp_pure _).mpr (wps_bind ((wp_rethrow _ _).mpr ?_)))
  refine wps_execute (fun v => h0 _) fun _ => ?_
  refine (wp_pure _).mpr ((wp_pure _).mpr ⟨fun _ a ha => ?_, fun _ => h0 _⟩)
  have hin : a ∈ schema.effect (.insert .user_account
      (new_account srv env m password display_name)) w.db .user_account := ha
  rcases Schema.mem_effect_insert.mp hin with hold | hnew
  · exact .kept hold
  · rw [hnew]
    exact .registered hm hlength

/-- The hash is left as it is, or moved forward to one of the password at hand. -/
theorem wps_rehash_exact {s : Session} {account : UserAccount} {password : String}
    {Q : Except Exc Unit → Session → Prop}
    (herr : ∀ e faults, Q (.error e) { s with faults := faults })
    (hok : ∀ db faults, (db = s.db ∨ db = schema.effect (.update .user_account account.id
      (.rehash (srv.argon2_hash env.salt password))) s.db) →
      Q (.ok ()) { s with db := db, faults := faults }) :
    wps (rehash srv env account password) Q s := by
  unfold rehash
  refine (wp_ite _ _).mpr ⟨fun _ => ?_, fun _ => (wp_pure _).mpr (hok s.db s.faults (.inl rfl))⟩
  refine wps_bind ?_
  unfold hash_password
  cases validate_password password with
  | some message => exact (wp_raise _).mpr (herr _ s.faults)
  | none =>
    refine (wp_pure _).mpr (wps_execute (fun v => herr _ _) fun _ => ?_)
    exact hok _ _ (.inr rfl)

theorem accounts_login {credentials : Option Token} {email password : String}
    (hc : schema.Consistent w.db) :
    ∀ a ∈ (serve srv env ⟨credentials, .login email password⟩ w).2.db .user_account,
      AccountFrom srv w.db (.request env ⟨credentials, .login email password⟩) a := by
  let P : Committed → Prop := fun w' => ∀ a ∈ w'.db .user_account,
    AccountFrom srv w.db (.request env ⟨credentials, .login email password⟩) a
  have h0 : ∀ ext, P ⟨w.db, ext⟩ := fun _ a ha => .kept ha
  refine @serve_wps Token srv env ⟨credentials, .login email password⟩ w (fun _ w' => P w') ?_
  refine wps_some_or_bind (fun _ => h0 _) fun m hm => ?_
  refine wps_require_bind (fun _ => h0 _) fun _ => ?_
  refine wps_bind ((wp_rethrow _ _).mpr (wps_authenticate (fun _ s' _ => h0 s'.ext) ?_))
  intro account hacc _ hverified _
  refine wps_bind (wps_rehash_exact (fun _ _ => h0 _) fun db faults hre => ?_)
  -- whatever follows leaves the accounts alone
  have hdb : ∀ a ∈ db .user_account,
      AccountFrom srv w.db (.request env ⟨credentials, .login email password⟩) a := by
    rcases hre with rfl | rfl
    · exact fun a ha => .kept ha
    · intro a ha
      obtain ⟨a₀, ha₀, rfl⟩ := Schema.mem_effect_update.mp ha
      by_cases hid : UserAccount.id a₀ = account.id
      · rw [Schema.patched_of_eq hid]
        obtain rfl : a₀ = account := hc.eq_of_pk ha₀ hacc hid
        exact .rehashed hacc hverified
      · rw [Schema.patched_of_ne hid]
        exact .kept ha₀
  refine wps_is_mfa_active_bind (h0 _) (fun m _ _ _ => ?_) fun _ => ?_
  · refine wps_bind (wps_bind (wp_perform_ext.mpr ((wp_pure _).mpr ((wp_pure _).mpr ?_))))
    exact (wp_pure _).mpr ⟨fun _ => hdb, fun _ => h0 _⟩
  · refine wps_bind (wps_complete_login (fun v s' => h0 s'.ext) fun issued s' hdb' _ => ?_)
    refine (wp_pure _).mpr ((wp_pure _).mpr ⟨fun _ => ?_, fun _ => h0 _⟩)
    intro a ha
    dsimp only at ha
    rw [hdb', signed_in_rows_ne (by decide) (by decide)] at ha
    exact hdb a ha

/-- **Step lemma.** An account after a step was there, or has registered, or got a new hash. -/
theorem accounts_step (hc : schema.Consistent w.db) {s : Step Token} :
    ∀ a ∈ (s.run srv w).db .user_account, AccountFrom srv w.db s a := by
  -- all but two routes can only take accounts away
  have hkept : (∀ a : UserAccount, ¬ s.permits srv (.write (.insert .user_account a))) →
      (∀ id patch, ¬ s.permits srv (.write (.update .user_account id patch))) →
      ∀ a ∈ (s.run srv w).db .user_account, AccountFrom srv w.db s a := by
    intro hinsert hupdate a ha
    refine .kept (Step.run_db_invariant (J := fun db => ∀ a ∈ db .user_account,
      a ∈ w.db .user_account) ?_ (fun _ ha => ha) a ha)
    intro wr db hp _ hdb a ha
    cases wr with
    | insert t row =>
      by_cases ht : t = .user_account
      · subst ht
        exact absurd hp (hinsert row)
      · rw [Schema.resolve, Schema.effect_insert_ne _ _ ht] at ha
        exact hdb a ha
    | update t id patch =>
      by_cases ht : t = .user_account
      · subst ht
        exact absurd hp (hupdate id patch)
      · rw [Schema.resolve, Schema.effect_update_ne _ _ _ ht] at ha
        exact hdb a ha
    | delete t id =>
      obtain ⟨a₀, ha₀, _, rfl⟩ := Schema.mem_effect_remove.mp ha
      rw [rigid (by decide)]
      exact hdb a₀ ha₀
  cases s with
  | ocr env document_id engine => exact hkept (fun _ hp => hp.elim) (fun _ _ hp => hp.elim)
  | request env req =>
    obtain ⟨credentials, route⟩ := req
    cases route
    case register email password display_name => exact accounts_register
    case login email password => exact accounts_login hc
    all_goals
      refine hkept (fun _ hp => ?_) fun _ _ hp => ?_
      · exact absurd hp.2.1 Bool.false_ne_true
      · exact absurd hp Bool.false_ne_true

end steps

/-! ### The password of an account -/

/-- A request of the run has registered the account, with this password. -/
structure Registered (srv : Server Token) (past : List (Step Token × Committed))
    (a : UserAccount) (password : String) : Prop where
  request : ∃ p ∈ past, ∃ env credentials email m display_name,
    p.1 = .request env ⟨credentials, .register email password display_name⟩ ∧
      a.id = env.uuid 0 ∧ srv.email_str email = some m ∧ a.email = normalize_email srv m
  active : a.active = true
  length : length_within min_password_length max_password_length password = true
  hash : ∃ salt, a.password_hash = some (srv.argon2_hash salt password)

section registered
variable {past : List (Step Token × Committed)} {given : String → Prop} {a : UserAccount}
  {password : String}

theorem Registered.is_given (h : Registered srv past a password) (hgives : Gives past given) :
    given password := by
  obtain ⟨p, hp, env, credentials, email, m, display_name, hstep, _⟩ := h.request
  refine hgives p hp password ?_
  rw [hstep]
  rfl

theorem Registered.verified (h : Registered srv past a password) (hargon : Argon2 srv given)
    (hgives : Gives past given) {q : String} (hq : given q) :
    verify_password_against srv q a.password_hash = true ↔ q = password := by
  obtain ⟨salt, hhash⟩ := h.hash
  rw [hhash]
  refine ⟨fun hverified => hargon.apart salt password q (h.is_given hgives) hq hverified, ?_⟩
  rintro rfl
  exact hargon.verifies salt q

theorem Registered.later (h : Registered srv past a password) (p : Step Token × Committed) :
    Registered srv (p :: past) a password := by
  obtain ⟨p₀, hp₀, hrequest⟩ := h.request
  exact ⟨⟨p₀, List.mem_cons_of_mem p hp₀, hrequest⟩, h.active, h.length, h.hash⟩

/-- **Run lemma.** Every account has the password it was registered with. -/
theorem Reaches.registered {C : History Token → Step Token → Prop} {h : History Token}
    (hr : Reaches srv C .start h) (hargon : Argon2 srv given) (hgives : Gives h.past given) :
    ∀ a ∈ h.world.db .user_account, ∃ password, Registered srv h.past a password := by
  induction hr with
  | refl =>
    intro a ha
    cases ha
  | @step h s hr _ ih =>
    have hearlier : Gives h.past given := fun p hp => hgives p (List.mem_cons_of_mem _ hp)
    intro a ha
    have hfrom := accounts_step hr.consistent a ha
    cases hfrom with
    | kept mem =>
      obtain ⟨password, hregistered⟩ := ih hearlier a mem
      exact ⟨password, hregistered.later _⟩
    | @registered env credentials email m password display_name address length =>
      refine ⟨password, ⟨_, List.mem_cons_self, ?_⟩, rfl, length, env.salt, rfl⟩
      exact ⟨env, credentials, email, m, display_name, rfl, rfl, address, rfl⟩
    | @rehashed env credentials email q a₀ mem verified =>
      -- what verified is what was registered, and that is what is hashed again
      obtain ⟨password, hregistered⟩ := ih hearlier a₀ mem
      have hq : given q := hgives _ List.mem_cons_self q rfl
      obtain rfl := (hregistered.verified hargon hearlier hq).mp verified
      have hlater := hregistered.later
        (.request env ⟨credentials, .login email q⟩, h.world)
      exact ⟨q, hlater.request, hlater.active, hlater.length, env.salt, rfl⟩

end registered

/-! ### The limiter is idle -/

/-- No failure is on record. -/
def AllSucceeded (db : Database) : Prop :=
  ∀ e ∈ db .auth_event, AuthEvent.event_type e = .login_succeeded

theorem event_type_null_out (gone : List (Table × Uuid)) (e : AuthEvent) :
    AuthEvent.event_type (schema.null_out gone .auth_event e) = e.event_type := by
  let P : AuthEvent → Prop := fun e' => e'.event_type = e.event_type
  have h0 : P e := rfl
  have hclears : ∀ k ∈ row_keys .auth_event, ∀ clear, k.on_delete = .set_null clear →
      ∀ e', P e' → P (clear e') := by
    intro k hk clear hclear e' he'
    obtain rfl := List.mem_singleton.mp hk
    cases hclear
    exact he'
  exact @Schema.foldl_nulled_keeps Table Uuid Row _ _ gone .auth_event P _ hclears e h0

theorem AllSucceeded.remove {db : Database} (h : AllSucceeded db) (gone : List (Table × Uuid)) :
    AllSucceeded (schema.effect (.remove gone) db) := by
  intro e he
  obtain ⟨e₀, he₀, _, rfl⟩ := Schema.mem_effect_remove.mp he
  rw [event_type_null_out]
  exact h e₀ he₀

theorem AllSucceeded.signed_in {db : Database} (h : AllSucceeded db) (email : String)
    (account : UserAccount) : AllSucceeded (signed_in_rows srv env email account db) := by
  intro e he
  unfold signed_in_rows at he
  rcases Schema.mem_effect_insert.mp he with hold | hnew
  · rw [Schema.effect_insert_ne _ _ (by decide)] at hold
    exact h e hold
  · rw [hnew]

theorem AllSucceeded.congr {db db' : Database} (h : AllSucceeded db)
    (hsame : db' .auth_event = db .auth_event) : AllSucceeded db' := by
  intro e he
  rw [hsame] at he
  exact h e he

/-- A sign-in that fails leaves nothing; one that succeeds says so. -/
theorem all_succeeded_serve {req : Request Token} {w : Committed} (h : AllSucceeded w.db)
    (hsigns : req.route.signs_in = true) : AllSucceeded (serve srv env req w).2.db := by
  let P : Committed → Prop := fun w' => AllSucceeded w'.db
  obtain ⟨credentials, route⟩ := req
  have hP : P (serve srv env ⟨credentials, route⟩ w).2 := by
    refine @serve_wps Token srv env ⟨credentials, route⟩ w (fun _ w' => P w') ?_
    cases route <;> try exact absurd hsigns Bool.false_ne_true
    case login email password =>
      refine wps_login (fun _ _ => h) (fun account _ s' _ _ hre => ⟨fun _ => ?_, fun _ => h⟩)
        (fun account _ db s' _ _ hre hdb => ⟨fun _ => ?_, fun _ => h⟩)
      · exact h.congr (hre.other (by decide))
      · show AllSucceeded s'.db
        rw [hdb]
        exact (h.congr (hre.other (by decide))).signed_in _ _
    case mfa_verify challenge_token code =>
      refine wps_mfa_verify (fun _ _ => h)
        fun account _ db s' _ _ _ haccepted hdb => ⟨fun _ => ?_, fun _ => h⟩
      show AllSucceeded s'.db
      rw [hdb]
      exact (h.congr (haccepted.other (by decide) (by decide))).signed_in _ _
    case passkey_login_complete credential =>
      refine wps_passkey_login_complete (fun _ _ => h)
        fun record _ db _ account _ _ s' htaken _ _ hdb => ⟨fun _ => ?_, fun _ => h⟩
      have hdb₀ : AllSucceeded db := htaken.result ▸ h.remove _
      show AllSucceeded s'.db
      rw [hdb]
      exact (hdb₀.congr (Schema.effect_update_ne _ _ _ (by decide))).signed_in _ _
  exact hP

theorem all_succeeded_step {s : Step Token} {w : Committed} (h : AllSucceeded w.db) :
    AllSucceeded (s.run srv w).db := by
  -- only a sign-in records an event
  have hkept : (∀ e : AuthEvent, ¬ s.permits srv (.write (.insert .auth_event e))) →
      (∀ id patch, ¬ s.permits srv (.write (.update .auth_event id patch))) →
      AllSucceeded (s.run srv w).db := by
    intro hinsert hupdate
    refine Step.run_db_invariant (J := AllSucceeded) ?_ h
    intro wr db hp _ hdb
    cases wr with
    | insert t row =>
      by_cases ht : t = .auth_event
      · subst ht
        exact absurd hp (hinsert row)
      · exact hdb.congr (Schema.effect_insert_ne _ _ ht)
    | update t id patch =>
      by_cases ht : t = .auth_event
      · subst ht
        exact absurd hp (hupdate id patch)
      · exact hdb.congr (Schema.effect_update_ne _ _ _ ht)
    | delete t id => exact hdb.remove _
  cases s with
  | ocr env document_id engine => exact hkept (fun _ hp => hp.elim) (fun _ _ hp => hp.elim)
  | request env req =>
    by_cases hsigns : req.route.signs_in = true
    · exact all_succeeded_serve h hsigns
    · exact hkept (fun _ hp => hsigns hp.2) (fun _ _ hp => hp.elim)

theorem Reaches.all_succeeded {C : History Token → Step Token → Prop} {h : History Token}
    (hr : Reaches srv C .start h) : AllSucceeded h.world.db := by
  refine hr.invariant (I := fun h => AllSucceeded h.world.db) ?_ fun h s _ hall _ => ?_
  · intro e he
    cases he
  · exact all_succeeded_step hall

/-! ### Signing in -/

section login
variable {w : Committed} {s : Session} {credentials : Option Token} {email m q : String}
  {a account : UserAccount}

theorem one_account_by_email {db : Database} (hc : schema.Consistent db) (address : String) :
    ((db .user_account).filter (fun a : UserAccount => a.email == address)).length ≤ 1 := by
  refine hc.select_indexed fun (a b : Row .user_account) ha hb => ?_
  have hsame : UserAccount.email a = UserAccount.email b := (eq_of_beq ha).trans (eq_of_beq hb).symm
  exact beq_iff_eq.mpr hsame

theorem account_of_email {db : Database} (hc : schema.Consistent db) (ha : a ∈ db .user_account)
    (hb : account ∈ db .user_account) (h : account.email = a.email) : account = a := by
  have hclash : schema.clash .user_account account a = true := beq_iff_eq.mpr h
  exact hc.eq_of_clash schema_regular hb ha hclash

/-- Whoever is let in has given the password of the address's account. -/
theorem verified_of_login (hc : schema.Consistent w.db) (ha : a ∈ w.db .user_account)
    (haddress : srv.email_str email = some m) (hmail : a.email = normalize_email srv m)
    (hin : (serve srv env ⟨credentials, .login email q⟩ w).1.succeeded = true) :
    verify_password_against srv q a.password_hash = true := by
  let P : Response Token → Committed → Prop := fun resp _ => resp.succeeded = true →
    verify_password_against srv q a.password_hash = true
  have herr : ∀ e w', P (answer (.login email q) (.error e)) w' := by
    intro e w' hsucceeded
    rw [succeeded_error] at hsucceeded
    cases hsucceeded
  have hright : ∀ account, PasswordVerified srv w.db email q account →
      verify_password_against srv q a.password_hash = true := by
    intro account hverified
    obtain ⟨m', hm', hmail'⟩ := hverified.address
    rw [haddress] at hm'
    cases hm'
    rw [← account_of_email hc ha hverified.mem (hmail'.trans hmail.symm)]
    exact hverified.password
  have hP : P (serve srv env ⟨credentials, .login email q⟩ w).1
      (serve srv env ⟨credentials, .login email q⟩ w).2 := by
    refine serve_wps (wps_login (fun e _ => herr e w) ?_ ?_)
    · exact fun account _ _ hverified _ _ => ⟨fun _ _ => hright account hverified, fun _ => herr _ w⟩
    · exact fun account _ _ _ hverified _ _ _ =>
        ⟨fun _ _ => hright account hverified, fun _ => herr _ w⟩
  exact hP hin

/-- Moving the hash forward is admitted, and leaves the account where it is. -/
theorem wps_rehash_admitted {Q : Except Exc Unit → Session → Prop} (hc : schema.Consistent s.db)
    (hf : schema.Fitting s.db) (hshort : (srv.argon2_hash env.salt q).length ≤ 255)
    (hup : true ∉ s.faults) (hacc : account ∈ s.db .user_account)
    (hlength : length_within min_password_length max_password_length q = true)
    (hok : ∀ db faults, true ∉ faults → (∀ t, .user_account ≠ t → db t = s.db t) →
      (∃ a ∈ db .user_account, UserAccount.id a = account.id) →
      (∀ a ∈ db .user_account, ∃ a₀ ∈ s.db .user_account, UserAccount.id a = UserAccount.id a₀) →
      Q (.ok ()) { s with db := db, faults := faults }) :
    wps (rehash srv env account q) Q s := by
  unfold rehash
  refine (wp_ite _ _).mpr ⟨fun _ => ?_, fun _ => (wp_pure _).mpr ?_⟩
  · unfold hash_password
    rw [validate_password_of_length hlength]
    refine wps_bind ((wp_pure _).mpr ?_)
    have hcheck : schema.check s.db (.update .user_account account.id
        (.rehash (srv.argon2_hash env.salt q))) = none := by
      refine (Schema.check_update_apart hc hacc fun r hr hne => ?_).trans ?_
      · -- the address stays what it was
        by_contra hclash
        rw [Bool.not_eq_false] at hclash
        have hold : schema.clash .user_account r account = true := hclash
        exact hne (congrArg _ (hc.eq_of_clash schema_regular hr hacc hold))
      · have hfits : row_fits .user_account account = none := hf .user_account account hacc
        have hhash : varchar_null 255 (some (srv.argon2_hash env.salt q)) = true := by
          simpa [varchar_null, varchar] using hshort
        obtain ⟨hlengths, htext, _⟩ := columns_none.mp hfits
        rw [Bool.and_eq_true] at hlengths
        refine columns_none.mpr ⟨?_, htext, rfl⟩
        rw [Bool.and_eq_true]
        exact ⟨hlengths.1, hhash⟩
    refine wps_execute_admitted hup hcheck (hok _ _ (up_tail hup) ?_ ?_ ?_)
    · exact fun t ht => Schema.effect_update_ne _ _ _ ht
    · exact ⟨_, Schema.mem_effect_update.mpr ⟨account, hacc, Schema.patched_of_eq rfl⟩, rfl⟩
    · intro a ha
      obtain ⟨a₀, ha₀, rfl⟩ := Schema.mem_effect_update.mp ha
      have hpk : schema.pk .user_account (schema.patched .user_account account.id
          (.rehash (srv.argon2_hash env.salt q)) a₀) = schema.pk .user_account a₀ :=
        Schema.pk_patched _ _ _ _
      exact ⟨a₀, ha₀, hpk⟩
  · exact hok s.db s.faults hup (fun _ _ => rfl) ⟨account, hacc, rfl⟩ fun a ha => ⟨a, ha, rfl⟩

/-- There is one record of a second factor at most. -/
theorem wps_is_mfa_active_unique {β : Type} {id : Uuid} {f : Bool → Handler β}
    {Q : Except Exc β → Session → Prop}
    (hone : ((s.db .user_mfa).filter (fun m : UserMfa => m.user_id == id)).length ≤ 1)
    (h : ∀ active, wps (f active) Q s) : wps (is_mfa_active id >>= f) Q s := by
  unfold is_mfa_active load_mfa
  refine wps_bind (wps_select_unique_bind hone (fun _ => ?_) fun m _ _ _ => ?_)
  · exact (wp_pure _).mpr (h _)
  · exact (wp_pure _).mpr (h _)

theorem one_factor {db : Database} (hc : schema.Consistent db) (id : Uuid) :
    ((db .user_mfa).filter (fun m : UserMfa => m.user_id == id)).length ≤ 1 := by
  refine hc.select_indexed fun (m m' : Row .user_mfa) hm hm' => ?_
  have hsame : UserMfa.user_id m = UserMfa.user_id m' := (eq_of_beq hm).trans (eq_of_beq hm').symm
  exact beq_iff_eq.mpr hsame

/-- The right password is let in, with a session or with a challenge. -/
theorem wps_accept_password_admitted {Q : Except Exc (SignIn Token) → Session → Prop}
    (hc : schema.Consistent s.db) (hf : schema.Fitting s.db)
    (hshort : (srv.argon2_hash env.salt q).length ≤ 255) (hsha : Sha256 srv)
    (hup : true ∉ s.faults)
    (hids : ∀ t, ∀ r ∈ s.db t, ∀ i, row_pk t r ≠ env.uuid i)
    (hdigest : ∀ us ∈ s.db .user_session,
      UserSession.refresh_digest us ≠ hash_refresh_token srv env.refresh_token)
    (hacc : account ∈ s.db .user_account)
    (hlength : length_within min_password_length max_password_length q = true)
    (h : ∀ signed_in s', Q (.ok signed_in) s') :
    wps (accept_password srv env account.email q account) Q s := by
  refine wps_bind (wps_rehash_admitted hc hf hshort hup hacc hlength ?_)
  intro db faults hup' hother hthere hcame
  refine wps_is_mfa_active_unique ?_ fun active => ?_
  · show ((db .user_mfa).filter _).length ≤ 1
    rw [hother _ (by decide)]
    exact one_factor hc _
  · refine (wp_ite _ _).mpr ⟨fun _ => ?_, fun _ => ?_⟩
    · refine wps_bind (wps_bind (wp_perform_ext.mpr ((wp_pure _).mpr ((wp_pure _).mpr ?_))))
      exact h _ _
    · refine wps_bind (wps_issue_admitted hup' hthere (email_fits hf hacc) ?_ ?_ ?_ fun issued s' => ?_)
      · intro t r hr i
        by_cases ht : .user_account = t
        · subst ht
          obtain ⟨a₀, ha₀, hid⟩ := hcame r hr
          have hnew := hids .user_account a₀ ha₀ i
          exact fun heq => hnew (hid.symm.trans heq)
        · have hr' : r ∈ s.db t := by rw [← hother t ht]; exact hr
          exact hids t r hr' i
      · exact (hsha _).le
      · intro us hus
        have hus' : us ∈ s.db .user_session := by rw [← hother _ (by decide)]; exact hus
        exact hdigest us hus'
      · exact (wp_pure _).mpr (h _ _)

/-- The password of an active account's address is let in, while no failure is on record. -/
theorem login_admitted (hc : schema.Consistent w.db) (hf : schema.Fitting w.db)
    (hall : AllSucceeded w.db) (hshort : (srv.argon2_hash env.salt q).length ≤ 255)
    (hsha : Sha256 srv)
    (hup : true ∉ env.faults) (hcommits : env.commits = true)
    (hids : ∀ t, ∀ r ∈ w.db t, ∀ i, row_pk t r ≠ env.uuid i)
    (hdigest : ∀ us ∈ w.db .user_session,
      UserSession.refresh_digest us ≠ hash_refresh_token srv env.refresh_token)
    (ha : a ∈ w.db .user_account) (hactive : a.active = true)
    (haddress : srv.email_str email = some m) (hmail : a.email = normalize_email srv m)
    (hlength : length_within min_password_length max_password_length q = true)
    (hverified : verify_password_against srv q a.password_hash = true) :
    (serve srv env ⟨credentials, .login email q⟩ w).1.succeeded = true := by
  let P : Response Token → Committed → Prop := fun resp _ => resp.succeeded = true
  have hP : P (serve srv env ⟨credentials, .login email q⟩ w).1
      (serve srv env ⟨credentials, .login email q⟩ w).2 := by
    refine serve_wps ?_
    refine wps_some_or_bind (fun hnone => ?_) fun m' hm' => ?_
    · rw [haddress] at hnone
      cases hnone
    rw [haddress] at hm'
    cases hm'
    refine wps_require_bind (fun hlong => ?_) fun _ => ?_
    · simp only [length_within, Bool.and_eq_true, Bool.and_eq_false_iff, decide_eq_true_eq,
        decide_eq_false_iff_not] at hlength hlong
      omega
    refine wps_bind ((wp_rethrow _ _).mpr ?_)
    -- no failure has been recorded, so the limit is not reached
    refine wps_bind (wps_select_bind ((wp_pure _).mpr ?_))
    refine wps_require_bind (fun hlimit => ?_) fun _ => ?_
    · have hnone : (w.db .auth_event).filter (fun e : AuthEvent =>
          e.email == normalize_email srv m && e.event_type == .login_failed &&
            decide (env.now - login_window ≤ e.created_at)) = [] := by
        refine List.filter_eq_nil_iff.mpr fun e he hfailed => ?_
        have htype := hall e he
        simp [htype] at hfailed
      have hzero : decide ((([] : List AuthEvent).length) < max_failed_logins) = false := by
        rw [← hnone]
        exact hlimit
      exact absurd hzero (by decide)
    refine wps_select_unique_bind (one_account_by_email hc _) (fun hnone => ?_)
      fun account hacc hp _ => ?_
    · have hmissing := hnone a ha
      rw [beq_eq_false_iff_ne] at hmissing
      exact absurd hmail hmissing
    obtain rfl : account = a := account_of_email hc ha hacc ((eq_of_beq hp).trans hmail.symm)
    have hmatch : (verify_password_against srv q account.password_hash && account.active) = true := by
      rw [hverified, hactive]
      rfl
    refine (wp_ite _ _).mpr ⟨fun _ => ?_, fun hno => absurd hmatch hno⟩
    rw [← hmail]
    refine wps_accept_password_admitted hc hf hshort hsha hup hids hdigest hacc hlength ?_
    intro signed_in s'
    refine (wp_pure _).mpr ⟨fun _ => rfl, fun hlost => ?_⟩
    rw [hcommits] at hlost
    cases hlost
  exact hP

end login

/-- **Password sign-in.** In every run, an account has one password: the one of the request
    that registered it. A login with the account's address is let in with that password,
    and with no other. -/
theorem registered_password_signs_in {C : History Token → Step Token → Prop} {h : History Token}
    {given : String → Prop} (hargon : Argon2 srv given) (hsha : Sha256 srv)
    (hr : Reaches srv C .start h) (hgives : Gives h.past given) {a : UserAccount}
    (ha : a ∈ h.world.db .user_account) :
    ∃ password, Registered srv h.past a password ∧
      ∀ env credentials email m q, Fresh srv h env → true ∉ env.faults → env.commits = true →
        srv.email_str email = some m → a.email = normalize_email srv m → given q →
        ((serve srv env ⟨credentials, .login email q⟩ h.world).1.succeeded = true ↔
          q = password) := by
  obtain ⟨password, hregistered⟩ := hr.registered hargon hgives a ha
  refine ⟨password, hregistered, fun env credentials email m q hfresh hup hcommits haddress
    hmail hq => ⟨fun hin => ?_, fun hright => ?_⟩⟩
  · have hverified := verified_of_login hr.consistent ha haddress hmail hin
    exact (hregistered.verified hargon hgives hq).mp hverified
  · subst hright
    exact login_admitted hr.consistent hr.fitting hr.all_succeeded (hargon.short _ _ hq) hsha hup
      hcommits (hfresh.ids _ h.world_mem_worlds) (hfresh.session_digests _ h.world_mem_worlds) ha
      hregistered.active haddress hmail hregistered.length
      ((hregistered.verified hargon hgives hq).mpr rfl)

/-! ### A second login -/

/-- The passwords given in a script are short. -/
def short_passwords (ls : List Sample.Line) : Bool :=
  ls.all fun l => (l.step.password).all fun password => decide (password.length ≤ 255)

theorem Sample.argon2 : Argon2 Sample.server (fun password => password.length ≤ 255) where
  verifies := fun _ password => beq_self_eq_true password
  apart := fun _ _ _ _ _ hsame => (beq_iff_eq.mp hsame).symm
  short := fun _ _ hshort => hshort

theorem Sample.gives {ls : List Sample.Line} (h : short_passwords ls = true) :
    Gives (Sample.play ls).past (fun password => password.length ≤ 255) := by
  intro p hp password hpassword
  obtain ⟨l, hl, hstep⟩ := Sample.past_play hp
  have hline := List.all_eq_true.mp h l hl
  rw [← hstep, hpassword] at hline
  exact of_decide_eq_true hline

/-- Two accounts, each with its password. -/
def two_sign_ups : List Sample.Line :=
  [⟨2, 101 * second, ⟨none, .register "b@x.org" "another horse" none⟩⟩,
    ⟨1, 100 * second, ⟨none, .register "a@x.org" "correct horse" none⟩⟩]

def login_at_three (email password : String) : Response Payload :=
  (serve Sample.server (Sample.env 3 (102 * second)) ⟨none, .login email password⟩
    (Sample.play two_sign_ups).world).1

/-- The first account's password opens the first account, and the second's does not. -/
theorem one_horse_each : ∃ a ∈ (Sample.play two_sign_ups).world.db .user_account,
    Registered Sample.server (Sample.play two_sign_ups).past a "correct horse" ∧
      (login_at_three "a@x.org" "correct horse").succeeded = true ∧
      ¬ (login_at_three "a@x.org" "another horse").succeeded = true := by
  have hrun : Sample.honest two_sign_ups = true ∧ short_passwords two_sign_ups = true ∧
      Sample.unseen (Sample.play two_sign_ups) 3 = true ∧
      (login_at_three "a@x.org" "correct horse").succeeded = true ∧
      ∃ a ∈ (Sample.play two_sign_ups).world.db .user_account,
        UserAccount.email a = "a@x.org" := by
    decide +kernel
  obtain ⟨hhonest, hshort, hunseen, hin, a, ha, hmail⟩ := hrun
  obtain ⟨password, hregistered, hiff⟩ := registered_password_signs_in Sample.argon2
    Sample.sha256_length (Sample.reaches_play hhonest) (Sample.gives hshort) ha
  have hfresh : Fresh Sample.server (Sample.play two_sign_ups) (Sample.env 3 (102 * second)) :=
    @Sample.fresh_of_unseen _ 3 _ (by decide) rfl rfl hunseen
  have hlogin := fun q hq => hiff (Sample.env 3 (102 * second)) none "a@x.org" "a@x.org" q hfresh
    (by decide) rfl rfl hmail hq
  obtain rfl := (hlogin "correct horse" (by decide)).mp hin
  refine ⟨a, ha, hregistered, hin, fun hother => ?_⟩
  have hsame := (hlogin "another horse" (by decide)).mp hother
  exact absurd hsame (by decide)

end CounselReady
