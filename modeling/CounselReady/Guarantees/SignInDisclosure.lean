import CounselReady.Guarantees.LoginRateLimit
import CounselReady.Specs.SignIn

/-! # What a Sign-In Discloses

    Two states are put the same questions. Failed password logins are answered
    by the audit trail alone, whichever accounts there are. The first half of a
    passkey sign-in answers with the passkeys of the account, so it tells an
    active account that has one from no account at all.
-/

namespace CounselReady

open Relational Framework Handler Prog

variable {Token : Type} {srv : Server Token}

/-- One account for each address. -/
theorem account_by_address {db : Database} (hc : schema.Consistent db) (email : String) :
    ((db .user_account).filter (fun u : UserAccount => u.email == email)).length ≤ 1 := by
  refine hc.select_indexed (fun (a b : Row .user_account) ha hb => ?_)
  have hsame : UserAccount.email a = UserAccount.email b :=
    (eq_of_beq ha).trans (eq_of_beq hb).symm
  exact beq_iff_eq.mpr hsame

/-! ### Password logins -/

/-- The record of a failure cannot be written: a fault, an address that is too long, or
    an id in use. -/
def unrecordable (db : Database) (a : Attempt Token) (email : String) : Bool :=
  a.env.faults.head? == some true || !varchar 320 email ||
    (db .auth_event).any (fun e : AuthEvent => e.id == a.env.uuid 0)

/-- The answer to a login whose password opens nothing. -/
def failed_answer (srv : Server Token) (db : Database) (a : Attempt Token) : Response Token :=
  match a.address srv with
  | none => answer a.request.route (.error unprocessable)
  | some email =>
      if !a.well_formed then answer a.request.route (.error unprocessable)
      else if limit_reached db email a.now then
        answer a.request.route (.error (login_answer (.rate_limited login_window)))
      else if unrecordable db a email then .internal_server_error
      else answer a.request.route (.error (login_answer .authentication))

/-- The row of a failure is decided by its width and its id: the account is there. -/
theorem check_failure_row {db : Database} {a : Attempt Token} {email : String}
    {account : Option UserAccount} (hthere : ∀ u, account = some u → u ∈ db .user_account) :
    (schema.check db (.insert .auth_event ⟨a.env.uuid 0, a.env.now, email,
      account.map UserAccount.id, .login_failed⟩)).isSome =
        (!varchar 320 email || (db .auth_event).any (fun e : AuthEvent => e.id == a.env.uuid 0)) := by
  have hanchored : schema.anchored db .auth_event ⟨a.env.uuid 0, a.env.now, email,
      account.map UserAccount.id, .login_failed⟩ = true := by
    refine Schema.anchored_iff.mpr fun k hk j hj => ?_
    obtain rfl := List.mem_singleton.mp hk
    cases haccount : account with
    | none =>
      rw [haccount] at hj
      cases hj
    | some u =>
      rw [haccount] at hj
      exact ⟨u, hthere u haccount, Option.some.inj hj⟩
  have hids : (db .auth_event).any (fun r => decide (schema.pk .auth_event r = a.env.uuid 0) ||
      schema.clash .auth_event r ⟨a.env.uuid 0, a.env.now, email, account.map UserAccount.id,
        .login_failed⟩) = (db .auth_event).any (fun e : AuthEvent => e.id == a.env.uuid 0) := by
    refine congrArg (fun f => (db .auth_event).any f) (funext fun r => ?_)
    simp only [schema, row_pk, row_clash, Bool.or_false]
    exact (beq_eq_decide _ _).symm
  have hpk : schema.pk .auth_event (⟨a.env.uuid 0, a.env.now, email, account.map UserAccount.id,
      .login_failed⟩ : AuthEvent) = a.env.uuid 0 := rfl
  have hfits : schema.fits .auth_event (⟨a.env.uuid 0, a.env.now, email,
      account.map UserAccount.id, .login_failed⟩ : AuthEvent) =
        if varchar 320 email then none else some .data := by
    show columns (varchar 320 email) true true = _
    cases varchar 320 email <;> rfl
  simp only [Schema.check, hfits, hpk, hids, hanchored]
  by_cases hwidth : varchar 320 email = true
  · simp only [hwidth, if_true, Bool.not_true, Bool.false_or]
    split <;> simp_all
  · simp [hwidth]

/-- A login's answer is read off the audit trail, and nothing is left behind. -/
def AnsweredAlike (srv : Server Token) (a : Attempt Token) (w : Committed)
    (resp : Response Token) (w' : Committed) : Prop :=
  resp = failed_answer srv w.db a ∧ w'.db = w.db

/-- A refusal, when its record is admitted and when it is not. -/
theorem wps_refused_alike {a : Attempt Token} {w : Committed} {email : String}
    {account : Option UserAccount} (haddr : a.address srv = some email)
    (hwf : a.well_formed = true) (hlim : limit_reached w.db email a.now = false)
    (hthere : ∀ u, account = some u → u ∈ w.db .user_account) :
    wps (refuse_login a.env email account) (sign_in_ends a w (AnsweredAlike srv a w))
      (w.begin a.env) := by
  have hrow := @check_failure_row _ w.db a email account hthere
  refine wps_refuse_login ?_ ?_ rfl
  · intro v faults hwhy
    have hun : unrecordable w.db a email = true := by
      unfold unrecordable
      rcases hwhy with hfault | hchk
      · simp [hfault]
      · rw [Committed.begin_db, hrow] at hchk
        rw [Bool.or_assoc, hchk, Bool.or_true]
    refine ⟨?_, rfl⟩
    simp only [failed_answer, haddr, hwf, hlim, hun, Bool.not_true, Bool.false_eq_true, if_false,
      if_true]
    rfl
  · intro hfault hchk s' _
    have hok : unrecordable w.db a email = false := by
      rw [Committed.begin_db] at hchk
      rw [hchk] at hrow
      have hnofault : (a.env.faults.head? == some true) = false := by simpa using hfault
      unfold unrecordable
      rw [Bool.or_assoc, hnofault, ← hrow]
      rfl
    refine ⟨?_, rfl⟩
    simp only [failed_answer, haddr, hwf, hlim, hok, Bool.not_true, Bool.false_eq_true, if_false]

/-- **One login.** Its answer is read off the audit trail, and nothing is left behind. -/
theorem serve_failed_login {w : Committed} (a : Attempt Token)
    (hone : ∀ email, ((w.db .user_account).filter
      (fun u : UserAccount => u.email == email)).length ≤ 1)
    (hfail : ∀ u ∈ w.db .user_account, UserAccount.active u = true →
      a.address srv = some u.email → verify_password_against srv a.password u.password_hash = false) :
    (serve srv a.env a.request w).1 = failed_answer srv w.db a ∧
      (serve srv a.env a.request w).2.db = w.db := by
  suffices hP : AnsweredAlike srv a w (serve srv a.env a.request w).1
    (serve srv a.env a.request w).2 from hP
  refine serve_login_by (fun hbad w' hdb _ => ⟨?_, hdb⟩) ?_ ?_ ?_ ?_
  · unfold failed_answer
    cases haddr : a.address srv with
    | none => rfl
    | some email => simp only [hbad email haddr, Bool.not_false, if_true]
  · intro email haddr hwf hlim w' hdb _
    refine ⟨?_, hdb⟩
    simp only [failed_answer, haddr, hwf, hlim, Bool.not_true, Bool.false_eq_true, if_false,
      if_true]
  · intro email found haddr hwf hlim hfilter _
    refine wps_refused_alike haddr hwf hlim fun u hu => ?_
    have hmem : u ∈ (w.db .user_account).filter (fun u : UserAccount => u.email == email) := by
      rw [hfilter, hu]
      exact List.mem_singleton_self u
    exact (List.mem_filter.mp hmem).1
  · -- no password opens anything
    intro email account haddr _ hfilter hright
    have hmem : account ∈ (w.db .user_account).filter
        (fun u : UserAccount => u.email == email) := by
      rw [hfilter]
      exact List.mem_singleton_self account
    obtain ⟨hu, hmail⟩ := List.mem_filter.mp hmem
    have hmail : UserAccount.email account = email := by simpa using hmail
    simp only [credentials_hold, hfilter, Bool.and_eq_true] at hright
    rw [hfail account hu hright.2 (by rw [hmail]; exact haddr)] at hright
    exact absurd hright.1 (by decide)
  · intro email _ _ hmany
    exact absurd (hone email) (Nat.not_le.mpr hmany)

/-! ### A sequence of logins -/

/-- The answers to the logins, in turn. -/
def responses (srv : Server Token) : List (Attempt Token) → Committed → List (Response Token)
  | [], _ => []
  | a :: rest, w =>
      (serve srv a.env a.request w).1 :: responses srv rest (serve srv a.env a.request w).2

/-- No password of the sequence opens an active account. -/
def AllFail (srv : Server Token) (db : Database) (as : List (Attempt Token)) : Prop :=
  ∀ a ∈ as, ∀ u ∈ db .user_account, UserAccount.active u = true → a.address srv = some u.email →
    verify_password_against srv a.password u.password_hash = false

/-- **Run.** Each login finds the state the first one found. -/
theorem responses_failed {w : Committed} {as : List (Attempt Token)}
    (hone : ∀ email, ((w.db .user_account).filter
      (fun u : UserAccount => u.email == email)).length ≤ 1)
    (hfail : AllFail srv w.db as) : responses srv as w = as.map (failed_answer srv w.db) := by
  induction as generalizing w with
  | nil => rfl
  | cons a rest ih =>
    obtain ⟨hresp, hdb⟩ := serve_failed_login a hone (hfail a List.mem_cons_self)
    have hrest := @ih (serve srv a.env a.request w).2 (by rw [hdb]; exact hone)
      (by rw [hdb]; exact fun a ha => hfail a (List.mem_cons_of_mem _ ha))
    rw [hdb] at hrest
    rw [responses, hresp, hrest, List.map_cons]

/-! ### A state with no accounts -/

/-- The row without the account it names. -/
def unlinked (e : AuthEvent) : AuthEvent := { e with user_id := none }

/-- The answers depend on the rows of the audit trail, and not on the accounts in them. -/
theorem failed_answer_congr {db db₀ : Database}
    (hsame : (db₀ .auth_event).map unlinked = (db .auth_event).map unlinked) :
    failed_answer srv db₀ = failed_answer srv db := by
  have hfailures : ∀ (db : Database) (email : String) (since : Nat),
      failures db email since = (((db .auth_event).map unlinked).filter (fun e : AuthEvent =>
        e.email == email && e.event_type == .login_failed &&
          decide (since ≤ e.created_at))).length := by
    intro db email since
    rw [List.filter_map, List.length_map]
    rfl
  have hids : ∀ (db : Database) (id : Uuid), (db .auth_event).any
      (fun e : AuthEvent => e.id == id) = ((db .auth_event).map unlinked).any
        (fun e : AuthEvent => e.id == id) := by
    intro db id
    rw [List.any_map]
    rfl
  funext a
  have hlimit : ∀ email, limit_reached db₀ email a.now = limit_reached db email a.now := by
    intro email
    unfold limit_reached
    rw [hfailures, hfailures, hsame]
  have hrecord : ∀ email, unrecordable db₀ a email = unrecordable db a email := by
    intro email
    unfold unrecordable
    rw [hids, hids, hsame]
  unfold failed_answer
  simp only [hlimit, hrecord]

/-- **Failed logins disclose no account.** From any state, the answers to any sequence of
    logins none of whose passwords opens an active account are those given from a state
    with the same audit trail and no accounts at all. -/
theorem failed_logins_alike {w w₀ : Committed} (hc : schema.Consistent w.db)
    (hnone : w₀.db .user_account = [])
    (hsame : (w₀.db .auth_event).map unlinked = (w.db .auth_event).map unlinked)
    (as : List (Attempt Token)) (hfail : AllFail srv w.db as) :
    responses srv as w = responses srv as w₀ := by
  have hone := fun email => account_by_address hc email
  have hone₀ : ∀ email, ((w₀.db .user_account).filter
      (fun u : UserAccount => u.email == email)).length ≤ 1 := by
    intro email
    simp [hnone]
  have hfail₀ : AllFail srv w₀.db as := by
    intro a _ u hu
    rw [hnone] at hu
    cases hu
  rw [responses_failed hone hfail, responses_failed hone₀ hfail₀, failed_answer_congr hsame]

/-- The rows, with nothing stored and nothing signed. -/
def stored_as (db : Database) : Committed := ⟨db, ⟨fun _ => none, [], []⟩⟩

/-- An active account, a deactivated one, and one without a password. -/
def three_accounts : Database
  | .user_account => [⟨1#128, "a@x.org", some "right", true, none⟩,
      ⟨2#128, "b@x.org", some "right", false, none⟩, ⟨3#128, "c@x.org", none, true, none⟩]
  | .auth_event => [⟨4#128, 90 * second, "a@x.org", some 1#128, .login_failed⟩]
  | _ => []

/-- Their audit trail, without them. -/
def no_accounts : Database
  | .auth_event => [⟨4#128, 90 * second, "a@x.org", none, .login_failed⟩]
  | _ => []

/-- A wrong password, the right one of a deactivated account, one for the account that
    has none, and one for nobody. -/
def failing_logins : List (Attempt Payload) :=
  [⟨Sample.env 1 (100 * second), none, "a@x.org", "wrong"⟩,
    ⟨Sample.env 2 (101 * second), none, "b@x.org", "right"⟩,
    ⟨Sample.env 3 (102 * second), none, "c@x.org", "right"⟩,
    ⟨Sample.env 4 (103 * second), none, "d@x.org", "right"⟩]

theorem three_accounts_alike :
    responses Sample.server failing_logins (stored_as three_accounts) =
      responses Sample.server failing_logins (stored_as no_accounts) := by
  have hsound : schema.Consistent three_accounts ∧ schema.Fitting three_accounts :=
    Sample.sound_of_admissible (by decide +kernel)
  have hfail : AllFail Sample.server three_accounts failing_logins := by
    unfold AllFail
    decide +kernel
  exact failed_logins_alike hsound.1 rfl (by decide) failing_logins hfail

/-! ### Passkey sign-ins -/

/-- The response with its challenge struck out. -/
def up_to_challenge : Response Token → Response Token
  | .success status (.authentication_options o) =>
      .success status (.authentication_options { o with challenge := [] })
  | response => response

/-- The draws of the request are new, and its challenge fits the column. -/
structure FreshChallenge (srv : Server Token) (env : Env) (db : Database) : Prop where
  id : ∀ c ∈ db .passkey_challenge, PasskeyChallenge.id c ≠ env.uuid 0
  challenge : ∀ c ∈ db .passkey_challenge,
    PasskeyChallenge.challenge c ≠ srv.base64url_encode env.challenge
  width : varchar 128 (srv.base64url_encode env.challenge) = true

theorem check_challenge {env : Env} {db : Database} {account : Option UserAccount}
    (hfresh : FreshChallenge srv env db)
    (hthere : ∀ u, account = some u → u ∈ db .user_account) :
    schema.check db (.insert .passkey_challenge (⟨env.uuid 0, account.map UserAccount.id,
      srv.base64url_encode env.challenge, env.now + challenge_ttl⟩ : PasskeyChallenge)) = none := by
  refine Schema.check_insert_of ?_ ?_ ?_
  · simp [schema, row_fits, columns, hfresh.width]
  · intro c hc
    refine ⟨hfresh.id c hc, ?_⟩
    simpa [schema, row_clash] using hfresh.challenge c hc
  · refine Schema.anchored_iff.mpr fun k hk j hj => ?_
    obtain rfl := List.mem_singleton.mp hk
    cases haccount : account with
    | none =>
      rw [haccount] at hj
      cases hj
    | some u =>
      rw [haccount] at hj
      exact ⟨u, hthere u haccount, Option.some.inj hj⟩

/-- The answer to the first half of a passkey sign-in, from what the address finds. -/
theorem handler_login_begin {w : Committed} {env : Env} {credentials : Option Token}
    {email m : String} {account : Option UserAccount} (hm : srv.email_str email = some m)
    (hfound : (w.db .user_account).filter
      (fun u : UserAccount => u.email == normalize_email srv m) = account.toList)
    (hfresh : FreshChallenge srv env w.db) :
    handler_response srv env ⟨credentials, .passkey_login_begin email⟩ w =
      if env.faults.head? = some true then .internal_server_error
      else .success 200 (.authentication_options ⟨srv.webauthn_rp_id, env.challenge,
        (offered w.db account).map Passkey.credential_id⟩) := by
  have hthere : ∀ u, account = some u → u ∈ w.db .user_account := by
    intro u hu
    have hmem : u ∈ (w.db .user_account).filter
        (fun u : UserAccount => u.email == normalize_email srv m) := by
      rw [hfound, hu]
      exact List.mem_singleton_self u
    exact (List.mem_filter.mp hmem).1
  let P : Response Token → Prop := fun resp =>
    resp = if env.faults.head? = some true then .internal_server_error
      else .success 200 (.authentication_options ⟨srv.webauthn_rp_id, env.challenge,
        (offered w.db account).map Passkey.credential_id⟩)
  suffices hP : P (handler_response srv env ⟨credentials, .passkey_login_begin email⟩ w) from hP
  refine handler_wps (wps_some_or_bind (fun hnone => ?_) fun m' hm' => ?_)
  · rw [hm] at hnone
    cases hnone
  obtain rfl : m = m' := Option.some.inj (hm.symm.trans hm')
  -- the lookup finds the account, or none
  refine wps_bind (wps_select_found hfound (wps_allowed_passkeys_bind ?_))
  refine wps_bind (wp_execute_cases ?_ ?_ ?_)
  · intro hfault
    exact (if_pos hfault).symm
  · intro v hv
    have hnone := @check_challenge _ srv env w.db account hfresh hthere
    have hv : schema.check w.db _ = some v := hv
    rw [hnone] at hv
    cases hv
  · intro hfault _
    exact (wp_pure _).mpr (if_neg hfault).symm

/-- **What an empty list tells.** Put to a state with an account for the address and to
    one without, with fresh challenges, the first half of a passkey sign-in is answered
    alike up to the challenge exactly when the account is inactive or has no passkey, or
    the database fails the INSERT. So whether the answer goes out before the COMMIT or
    after one that works. -/
theorem begin_discloses_iff {answers_first : Bool} {w w₀ : Committed} {env env₀ : Env}
    {email m : String} {account : UserAccount}
    (hsent : answers_first = true ∨ env.commits = true) (hc : schema.Consistent w.db)
    (haccount : account ∈ w.db .user_account) (hm : srv.email_str email = some m)
    (haddress : account.email = normalize_email srv m)
    (hnone : ∀ u ∈ w₀.db .user_account, UserAccount.email u ≠ normalize_email srv m)
    (henv : env₀ = { env with challenge := env₀.challenge })
    (hfresh : FreshChallenge srv env w.db) (hfresh₀ : FreshChallenge srv env₀ w₀.db)
    (credentials : Option Token) :
    up_to_challenge (sent answers_first srv env ⟨credentials, .passkey_login_begin email⟩ w) =
        up_to_challenge
          (sent answers_first srv env₀ ⟨credentials, .passkey_login_begin email⟩ w₀) ↔
      account.active = false ∨ (∀ p ∈ w.db .passkey, Passkey.user_id p ≠ account.id) ∨
        env.faults.head? = some true := by
  have hfound : (w.db .user_account).filter
      (fun u : UserAccount => u.email == normalize_email srv m) = (some account).toList := by
    have hmem : account ∈ (w.db .user_account).filter
        (fun u : UserAccount => u.email == normalize_email srv m) :=
      List.mem_filter.mpr ⟨haccount, by simp [haddress]⟩
    have hone := account_by_address hc (normalize_email srv m)
    obtain ⟨u, hu⟩ := List.length_eq_one_iff.mp
      (Nat.le_antisymm hone (List.length_pos_of_mem hmem))
    rw [hu, List.mem_singleton] at hmem
    rw [hu, hmem]
    rfl
  have hfound₀ : (w₀.db .user_account).filter (fun u : UserAccount =>
      u.email == normalize_email srv m) = (none : Option UserAccount).toList :=
    List.filter_eq_nil_iff.mpr fun u hu => by simpa using hnone u hu
  have hsent₀ : answers_first = true ∨ env₀.commits = true := by
    rw [henv]
    exact hsent
  have hfaults : env₀.faults = env.faults := by rw [henv]
  -- both answers are what the handler returns, and they differ in the list alone
  rw [sent_eq_handler hsent, sent_eq_handler hsent₀, handler_login_begin hm hfound hfresh,
    handler_login_begin hm hfound₀ hfresh₀, hfaults]
  by_cases hdown : env.faults.head? = some true
  · simp [hdown]
  have hnobody : offered w₀.db none = [] := rfl
  simp only [hdown, if_false, up_to_challenge, hnobody, List.map_nil, Response.success.injEq,
    true_and, Reply.authentication_options.injEq, AuthenticationOptions.mk.injEq,
    List.map_eq_nil_iff, or_false]
  by_cases hactive : account.active = true
  · have hoffered : offered w.db (some account) =
        (w.db .passkey).filter (fun p : Passkey => p.user_id == account.id) := by
      simp [offered, Option.filter, hactive]
    rw [hoffered, List.filter_eq_nil_iff]
    simp [hactive]
  · have hoffered : offered w.db (some account) = [] := by simp [offered, Option.filter, hactive]
    simp [hoffered, hactive]

/-- One account with a passkey. -/
def with_passkey : Database
  | .user_account => [⟨1#128, "a@x.org", none, true, none⟩]
  | .passkey => [⟨2#128, 1#128, [1], [], 0, false, none, none⟩]
  | _ => []

theorem with_passkey_sound : schema.Consistent with_passkey ∧ schema.Fitting with_passkey :=
  Sample.sound_of_admissible (by decide +kernel)

/-- The account of a scan has no passkey. -/
theorem scan_owner_undisclosed :
    up_to_challenge (sent true Sample.server (Sample.env 1 (100 * second))
        ⟨none, .passkey_login_begin "a@x.org"⟩ (stored_as Sample.scan)) =
      up_to_challenge (sent true Sample.server (Sample.env 1 (100 * second))
        ⟨none, .passkey_login_begin "a@x.org"⟩ (stored_as fun _ => [])) := by
  have hsound : schema.Consistent Sample.scan ∧ schema.Fitting Sample.scan :=
    Sample.sound_of_admissible (by decide +kernel)
  have hfresh : FreshChallenge Sample.server (Sample.env 1 (100 * second)) Sample.scan :=
    ⟨by decide, by decide, by decide⟩
  have hfresh₀ : FreshChallenge Sample.server (Sample.env 1 (100 * second)) (fun _ => []) :=
    ⟨by decide, by decide, by decide⟩
  refine (@begin_discloses_iff _ Sample.server true (stored_as Sample.scan) (stored_as fun _ => [])
    (Sample.env 1 (100 * second)) (Sample.env 1 (100 * second)) "a@x.org" "a@x.org"
    ⟨1#128, "a@x.org", none, true, none⟩ (.inl rfl) hsound.1 (by decide) rfl (by decide) (by decide) rfl
    hfresh hfresh₀ none).mpr (.inr (.inl ?_))
  decide

/-- The account with a passkey is told from no account, whichever goes first. -/
theorem passkey_owner_disclosed :
    (∀ t, t ≠ .user_account → t ≠ .passkey → with_passkey t = []) ∧
      schema.Consistent with_passkey ∧ schema.Fitting with_passkey ∧
      ∀ answers_first, up_to_challenge (sent answers_first Sample.server
          (Sample.env 1 (100 * second)) ⟨none, .passkey_login_begin "a@x.org"⟩
            (stored_as with_passkey)) ≠
        up_to_challenge (sent answers_first Sample.server (Sample.env 1 (100 * second))
          ⟨none, .passkey_login_begin "a@x.org"⟩ (stored_as fun _ => [])) := by
  refine ⟨?_, with_passkey_sound.1, with_passkey_sound.2, ?_⟩
  · intro t haccounts hpasskeys
    cases t <;> first | rfl | contradiction
  · decide +kernel

end CounselReady
