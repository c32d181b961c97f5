import CounselReady.Specs.SignIn
import CounselReady.Sample

/-! # What a Challenge Is Good For

    A challenge is a row with a value, an expiry, and the account it was asked
    for. Only the first two are ever read: whoever completes a ceremony takes
    the row, and what the completion does is decided by the bearer token or by
    the passkey that verifies, not by the row.

    * `challenge_step`: what one step of the server does to challenges.
    * `ceremony_completed`: in every run, a completion answers a challenge that
      the run has issued within five minutes, and spends it.
-/

namespace CounselReady

open Relational Framework Prog

variable {Token : Type} {srv : Server Token}

/-! ### Ceremonies of a run -/

/-- The challenge a completion presents. -/
def Route.presented : Route Token → Option String
  | .register_complete credential _ => credential.challenge
  | .passkey_login_complete credential => credential.challenge
  | _ => none

/-- The challenge a step issues, in the state it meets. -/
def issues (srv : Server Token) : Step Token × Committed → Option String
  | (.request env req, w) =>
      if req.route.asks_challenge && (serve srv env req w).1.succeeded then
        some (srv.base64url_encode env.challenge)
      else none
  | (.ocr _ _ _, _) => none

/-- The challenge with which a step completes a ceremony. -/
def completes (srv : Server Token) : Step Token × Committed → Option String
  | (.request env req, w) => if (serve srv env req w).1.succeeded then req.route.presented else none
  | (.ocr _ _ _, _) => none

/-! ### What a completion does -/

/-- The session a sign-in opens. -/
def opened_session (srv : Server Token) (env : Env) (account : UserAccount) : UserSession :=
  ⟨env.uuid 0, account.id, hash_refresh_token srv env.refresh_token, refresh_expiry env.now, none,
    some env.now⟩

/-- The effect of a completion, with the challenge it answers: one more passkey, for the
    account signed in, or one more session, for the owner of the passkey that verifies. -/
inductive Completed (srv : Server Token) (env : Env) (w : Committed) (challenge : Bytes)
    (w' : Committed) : Request Token → Prop where
  | registration {credentials : Option Token} {credential : Credential} {label : Option String}
      (auth : Authenticated) (registered : RegisteredPasskey)
      (signed_in : SignedIn srv env credentials w.db auth)
      (verified : srv.webauthn_registration (relying_party srv) credential challenge =
        .ok registered)
      (new : ∀ p ∈ w.db .passkey, Passkey.id p ≠ env.uuid 0)
      (passkeys : w'.db .passkey =
        w.db .passkey ++ [added_passkey env auth.account registered label])
      (sessions : w'.db .user_session = w.db .user_session) :
      Completed srv env w challenge w' ⟨credentials, .register_complete credential label⟩
  | sign_in {credentials : Option Token} {credential : Credential}
      (passkey : Passkey) (account : UserAccount) (count : Nat)
      (verified : PasskeyVerified srv credential challenge w.db passkey account count)
      (sessions : w'.db .user_session = w.db .user_session ++ [opened_session srv env account])
      (passkeys : w'.db .passkey = (w.db .passkey).map (fun p : Passkey =>
        if p.id = passkey.id then (assertion_patch env passkey count).apply p else p))
      (others : ∀ p : Passkey, p.user_id ≠ account.id →
        (p ∈ w'.db .passkey ↔ p ∈ w.db .passkey)) :
      Completed srv env w challenge w' ⟨credentials, .passkey_login_complete credential⟩

/-- A completion fails and changes nothing, or takes the challenge it presents. -/
inductive CompletionServed (srv : Server Token) (env : Env) (req : Request Token) (w : Committed)
    (resp : Response Token) (w' : Committed) : Prop where
  | failed (refused : resp.succeeded = false) (kept : w'.db = w.db)
  | done (record : PasskeyChallenge) (challenge : Bytes) (succeeded : resp.succeeded = true)
      (mem : record ∈ w.db .passkey_challenge)
      (presented : req.route.presented = some record.challenge)
      (fresh : env.now < record.expires_at)
      (bytes : srv.base64url_to_bytes record.challenge = some challenge)
      (left : ∀ r ∈ w'.db .passkey_challenge, r ∈ w.db .passkey_challenge ∧
        PasskeyChallenge.id r ≠ record.id)
      (completed : Completed srv env w challenge w' req)

theorem serve_registration {env : Env} {credentials : Option Token} {credential : Credential}
    {label : Option String} {w : Committed} :
    CompletionServed srv env ⟨credentials, .register_complete credential label⟩ w
      (serve srv env ⟨credentials, .register_complete credential label⟩ w).1
      (serve srv env ⟨credentials, .register_complete credential label⟩ w).2 := by
  refine serve_wps (wps_register_complete (fun e s' => .failed (succeeded_error _ e) rfl) ?_)
  intro auth record challenge registered db s' hauth htaken hbytes hregistered hnew hdb
  refine ⟨fun _ => ?_, fun _ => .failed (succeeded_error _ _) rfl⟩
  have hrest : ∀ t, t ≠ .passkey → s'.db t = db t := by
    intro t ht
    rw [hdb, Schema.effect_insert_ne _ _ (Ne.symm ht)]
  have hpasskeys : db .passkey = w.db .passkey := htaken.other (by decide) (rigid (by decide))
  refine .done record challenge rfl htaken.mem htaken.answered htaken.fresh hbytes ?_ ?_
  · show ∀ r ∈ s'.db .passkey_challenge, _
    rw [hrest _ (by decide)]
    exact htaken.left
  · refine .registration auth registered hauth hregistered ?_ ?_ ?_
    · rwa [← hpasskeys]
    · show s'.db .passkey = _
      rw [hdb, Schema.effect_insert_self, hpasskeys]
    · show s'.db .user_session = _
      rw [hrest _ (by decide)]
      exact htaken.other (by decide) (rigid (by decide))

/-- An UPDATE of one's own passkey is nothing to others: they find what they had. -/
theorem passkeys_of_others {db : Database} (hc : schema.Consistent db) {passkey : Passkey}
    (hmem : passkey ∈ db .passkey) {patch : PasskeyPatch} {account_id : Uuid}
    (howner : passkey.user_id = account_id) {p : Passkey} (hp : p.user_id ≠ account_id) :
    (p ∈ (db .passkey).map (fun p : Passkey => if p.id = passkey.id then patch.apply p else p)) ↔
      p ∈ db .passkey := by
  rw [List.mem_map]
  constructor
  · rintro ⟨p₀, hp₀, rfl⟩
    by_cases hid : Passkey.id p₀ = passkey.id
    · obtain rfl : p₀ = passkey := hc.eq_of_pk hp₀ hmem hid
      rw [if_pos rfl] at hp
      exact absurd howner hp
    · rwa [if_neg hid]
  · intro hin
    refine ⟨p, hin, if_neg fun hid => hp ?_⟩
    obtain rfl : p = passkey := hc.eq_of_pk hin hmem hid
    exact howner

theorem serve_passkey_login {env : Env} {credentials : Option Token} {credential : Credential}
    {w : Committed} (hc : schema.Consistent w.db) :
    CompletionServed srv env ⟨credentials, .passkey_login_complete credential⟩ w
      (serve srv env ⟨credentials, .passkey_login_complete credential⟩ w).1
      (serve srv env ⟨credentials, .passkey_login_complete credential⟩ w).2 := by
  refine serve_wps (wps_passkey_login_complete (fun e s' => .failed (succeeded_error _ e) rfl) ?_)
  intro record challenge db passkey account count reply s' htaken hbytes hverified hdb
  refine ⟨fun _ => ?_, fun _ => .failed (succeeded_error _ _) rfl⟩
  have hpasskeys : db .passkey = w.db .passkey := htaken.other (by decide) (rigid (by decide))
  have haccounts : db .user_account = w.db .user_account :=
    htaken.other (by decide) (rigid (by decide))
  have hverified' : PasskeyVerified srv credential challenge w.db passkey account count :=
    { hverified with
      mem := hpasskeys ▸ hverified.mem
      holder := haccounts ▸ hverified.holder }
  have hrest : ∀ t, t ≠ .passkey → t ≠ .user_session → t ≠ .auth_event → s'.db t = db t := by
    intro t hpasskey hsession hevent
    rw [hdb, signed_in_rows, Schema.effect_insert_ne _ _ (Ne.symm hevent),
      Schema.effect_insert_ne _ _ (Ne.symm hsession), Schema.effect_update_ne _ _ _ (Ne.symm hpasskey)]
  have hupdated : s'.db .passkey = (w.db .passkey).map (fun p : Passkey =>
      if p.id = passkey.id then (assertion_patch env passkey count).apply p else p) := by
    rw [hdb, signed_in_rows, Schema.effect_insert_ne _ _ (by decide),
      Schema.effect_insert_ne _ _ (by decide), Schema.effect_update_self, hpasskeys]
    rfl
  refine .done record challenge rfl htaken.mem htaken.answered htaken.fresh hbytes ?_ ?_
  · show ∀ r ∈ s'.db .passkey_challenge, _
    rw [hrest _ (by decide) (by decide) (by decide)]
    exact htaken.left
  · refine .sign_in passkey account count hverified' ?_ hupdated fun p hp => ?_
    · show s'.db .user_session = _
      rw [hdb, signed_in_rows, Schema.effect_insert_ne _ _ (by decide), Schema.effect_insert_self,
        Schema.effect_update_ne _ _ _ (by decide), htaken.other (by decide) (rigid (by decide))]
      rfl
    · show p ∈ s'.db .passkey ↔ _
      rw [hupdated]
      exact passkeys_of_others hc hverified'.mem hverified'.owner.symm hp

/-! ### One step -/

/-- What a step does to challenges. -/
inductive ChallengeStep (srv : Server Token) (s : Step Token) (w : Committed) : Prop where
  | issued (user_id : Option Uuid)
      (issue : issues srv (s, w) = some (challenge_row srv s.env user_id).challenge)
      (complete : completes srv (s, w) = none)
      (rows : ∀ r ∈ (s.run srv w).db .passkey_challenge, r ∈ w.db .passkey_challenge ∨
        r = challenge_row srv s.env user_id)
  | taken (record : PasskeyChallenge)
      (issue : issues srv (s, w) = none)
      (complete : completes srv (s, w) = some record.challenge)
      (mem : record ∈ w.db .passkey_challenge)
      (fresh : s.env.now < record.expires_at)
      (rows : ∀ r ∈ (s.run srv w).db .passkey_challenge, r ∈ w.db .passkey_challenge ∧
        PasskeyChallenge.id r ≠ record.id)
  | other
      (issue : issues srv (s, w) = none)
      (complete : completes srv (s, w) = none)
      (rows : ∀ r ∈ (s.run srv w).db .passkey_challenge, r ∈ w.db .passkey_challenge)

/-- A route that neither issues nor takes a challenge adds none. -/
theorem challenges_only_go {s : Step Token} {w : Committed}
    (hroute : ∀ env req, s = .request env req → req.route.asks_challenge = false) :
    ∀ r ∈ (s.run srv w).db .passkey_challenge, r ∈ w.db .passkey_challenge := by
  let J : Database → Prop := fun db => ∀ r ∈ db .passkey_challenge, r ∈ w.db .passkey_challenge
  have hJ : J (s.run srv w).db := by
    refine Step.run_db_invariant (fun wr db hp _ hdb r hr => ?_) (fun _ hr => hr)
    rcases Schema.mem_effect_resolve (rigid (by decide)) hr with hold | rfl | ⟨_, p, _⟩
    · exact hdb r hold
    · cases s with
      | ocr env document_id engine => exact hp.elim
      | request env req =>
        have hasks : req.route.asks_challenge = true := hp.2
        rw [hroute env req rfl] at hasks
        cases hasks
    · exact p.elim
  exact hJ

/-- A begin fails and changes nothing, or adds its challenge. -/
theorem asked_step {env : Env} {req : Request Token} {w : Committed}
    (hasks : req.route.asks_challenge = true) (hnone : req.route.presented = none)
    (hrows : ∀ {Q : Except Exc (Reply Token) → Session → Prop}, (∀ e s', Q (.error e) s') →
      (∀ user_id reply s', s'.db = schema.effect
        (.insert .passkey_challenge (challenge_row srv env user_id)) w.db → Q (.ok reply) s') →
      wps (respond srv env req) Q (w.begin env)) : ChallengeStep srv (.request env req) w := by
  let P : Response Token → Committed → Prop := fun resp w' =>
    (resp.succeeded = true ∧ ∃ user_id, w'.db = schema.effect
      (.insert .passkey_challenge (challenge_row srv env user_id)) w.db) ∨
    (resp.succeeded = false ∧ w'.db = w.db)
  have hserved : P (serve srv env req w).1 (serve srv env req w).2 := by
    refine serve_wps (hrows (fun e s' => .inr ⟨succeeded_error _ e, rfl⟩) ?_)
    intro user_id reply s' hdb
    exact ⟨fun _ => .inl ⟨rfl, user_id, hdb⟩, fun _ => .inr ⟨succeeded_error _ _, rfl⟩⟩
  have hcomplete : completes srv (.request env req, w) = none := by simp [completes, hnone]
  rcases hserved with ⟨hdone, user_id, hdb⟩ | ⟨hfailed, hdb⟩
  · refine .issued user_id (by simp [issues, hasks, hdone, challenge_row, Step.env]) hcomplete ?_
    intro r hr
    have hr : r ∈ (serve srv env req w).2.db .passkey_challenge := hr
    rw [hdb] at hr
    exact Schema.mem_effect_insert.mp hr
  · refine .other (by simp [issues, hfailed]) hcomplete ?_
    show ∀ r ∈ (serve srv env req w).2.db .passkey_challenge, _
    rw [hdb]
    exact fun _ hr => hr

theorem answered_step {env : Env} {req : Request Token} {w : Committed}
    (hasks : req.route.asks_challenge = false)
    (h : CompletionServed srv env req w (serve srv env req w).1 (serve srv env req w).2) :
    ChallengeStep srv (.request env req) w := by
  have hissue : issues srv (.request env req, w) = none := by simp [issues, hasks]
  cases h with
  | failed refused kept =>
    refine .other hissue (by simp [completes, refused]) ?_
    show ∀ r ∈ (serve srv env req w).2.db .passkey_challenge, _
    rw [kept]
    exact fun _ hr => hr
  | done record challenge succeeded mem presented fresh bytes left completed =>
    exact .taken record hissue (by simp [completes, succeeded, presented]) mem fresh left

/-- **Step.** A step issues one challenge, or takes one, or leaves none that was not
    there. -/
theorem challenge_step (s : Step Token) {w : Committed} (hc : schema.Consistent w.db) :
    ChallengeStep srv s w := by
  have hother : (∀ env req, s = .request env req →
      req.route.asks_challenge = false ∧ req.route.presented = none) → ChallengeStep srv s w := by
    intro hroute
    refine .other ?_ ?_ (challenges_only_go fun env req h => (hroute env req h).1)
    · cases s with
      | ocr env document_id engine => rfl
      | request env req => simp [issues, (hroute env req rfl).1]
    · cases s with
      | ocr env document_id engine => rfl
      | request env req => simp [completes, (hroute env req rfl).2]
  cases s with
  | ocr env document_id engine => exact hother fun _ _ h => by cases h
  | request env req =>
    obtain ⟨credentials, route⟩ := req
    cases route
    case register_begin =>
      exact asked_step rfl rfl fun herr hok => @wps_register_begin _ srv env _ credentials _ herr hok
    case passkey_login_begin email =>
      exact asked_step rfl rfl fun herr hok => @wps_passkey_login_begin _ srv env _ email _ herr hok
    case register_complete credential label => exact answered_step rfl serve_registration
    case passkey_login_complete credential => exact answered_step rfl (serve_passkey_login hc)
    all_goals
      refine hother fun env' req' h => ?_
      obtain ⟨rfl, rfl⟩ := Step.request.inj h
      exact ⟨rfl, rfl⟩

/-! ### Runs -/

/-- How often the run has issued the challenge. -/
def times_issued (srv : Server Token) (h : History Token) (c : String) : Nat :=
  (h.past.filterMap (issues srv)).count c

/-- How often the run has completed a ceremony with it. -/
def times_completed (srv : Server Token) (h : History Token) (c : String) : Nat :=
  (h.past.filterMap (completes srv)).count c

/-- A challenge on record was issued by the run, has its expiry from then, and has been
    completed with less often than issued. -/
structure ChallengesKept (srv : Server Token) (h : History Token) : Prop where
  issued : ∀ r ∈ h.world.db .passkey_challenge, ∃ x ∈ h.past,
    issues srv x = some (PasskeyChallenge.challenge r) ∧
      r.expires_at = x.1.env.now + challenge_ttl
  unspent : ∀ r ∈ h.world.db .passkey_challenge,
    times_completed srv h (PasskeyChallenge.challenge r) <
      times_issued srv h (PasskeyChallenge.challenge r)
  spent : ∀ c, times_completed srv h c ≤ times_issued srv h c

theorem count_next {h : History Token} {s : Step Token} {c : String}
    (f : Step Token × Committed → Option String) :
    ((h.next srv s).past.filterMap f).count c =
      (h.past.filterMap f).count c + if f (s, h.world) = some c then 1 else 0 := by
  show (((s, h.world) :: h.past).filterMap f).count c = _
  cases hf : f (s, h.world) with
  | none => simp [hf]
  | some d =>
    rw [List.filterMap_cons_some hf, List.count_cons]
    by_cases hd : d = c <;> simp [hd]

/-- **Step.** Issuing counts one more of what it adds; taking leaves none of what it
    counts, for a value is on record once. -/
theorem ChallengesKept.step {h : History Token} (hc : schema.Consistent h.world.db)
    (hk : ChallengesKept srv h) (s : Step Token) : ChallengesKept srv (h.next srv s) := by
  have hearlier : ∀ r ∈ h.world.db .passkey_challenge, ∃ x ∈ (h.next srv s).past,
      issues srv x = some (PasskeyChallenge.challenge r) ∧
        r.expires_at = x.1.env.now + challenge_ttl := by
    intro r hr
    obtain ⟨x, hx, hissue, hexpires⟩ := hk.issued r hr
    exact ⟨x, List.mem_cons_of_mem _ hx, hissue, hexpires⟩
  have hissues : ∀ c, times_issued srv (h.next srv s) c =
      times_issued srv h c + if issues srv (s, h.world) = some c then 1 else 0 :=
    fun c => count_next (issues srv)
  have hcompletes : ∀ c, times_completed srv (h.next srv s) c =
      times_completed srv h c + if completes srv (s, h.world) = some c then 1 else 0 :=
    fun c => count_next (completes srv)
  cases (challenge_step s hc : ChallengeStep srv s h.world) with
  | issued user_id issue complete rows =>
    simp only [issue, complete, reduceCtorEq, if_false, Nat.add_zero] at hissues hcompletes
    refine ⟨fun r hr => ?_, fun r hr => ?_, fun c => ?_⟩
    · rcases rows r hr with hold | rfl
      · exact hearlier r hold
      · exact ⟨(s, h.world), List.mem_cons_self, issue, rfl⟩
    · rw [hissues, hcompletes]
      rcases rows r hr with hold | rfl
      · have hlt := hk.unspent r hold
        omega
      · have hle := hk.spent (challenge_row srv s.env user_id).challenge
        simp only [if_true]
        omega
    · have hle := hk.spent c
      rw [hissues, hcompletes]
      omega
  | taken record issue complete mem fresh rows =>
    simp only [issue, complete, reduceCtorEq, if_false, Nat.add_zero, Option.some.injEq]
      at hissues hcompletes
    -- a value is on record once, so with its row gone it is gone
    have hapart : ∀ r ∈ (h.next srv s).world.db .passkey_challenge,
        record.challenge ≠ PasskeyChallenge.challenge r := by
      intro r hr heq
      obtain ⟨hold, hid⟩ := rows r hr
      have hclash : schema.clash .passkey_challenge r record = true := beq_iff_eq.mpr heq.symm
      obtain rfl : r = record := hc.eq_of_clash schema_regular hold mem hclash
      exact hid rfl
    refine ⟨fun r hr => hearlier r (rows r hr).1, fun r hr => ?_, fun c => ?_⟩
    · have hlt := hk.unspent r (rows r hr).1
      rw [hissues, hcompletes, if_neg (hapart r hr)]
      omega
    · rw [hissues, hcompletes]
      by_cases hsame : record.challenge = c
      · have hlt := hk.unspent record mem
        rw [if_pos hsame, ← hsame]
        omega
      · have hle := hk.spent c
        rw [if_neg hsame]
        omega
  | other issue complete rows =>
    simp only [issue, complete, reduceCtorEq, if_false, Nat.add_zero] at hissues hcompletes
    refine ⟨fun r hr => hearlier r (rows r hr), fun r hr => ?_, fun c => ?_⟩
    · rw [hissues, hcompletes]
      exact hk.unspent r (rows r hr)
    · rw [hissues, hcompletes]
      exact hk.spent c

/-- **Run.** In every run the challenges on record are accounted for. -/
theorem Reaches.challenges_kept {C : History Token → Step Token → Prop} {h : History Token}
    (hr : Reaches srv C History.start h) : ChallengesKept srv h := by
  refine hr.invariant ⟨?_, ?_, ?_⟩ fun h s hr hk _ => hk.step hr.consistent s
  · intro r hr
    cases hr
  · intro r hr
    cases hr
  · intro c
    exact Nat.le_refl 0

/-- **A completion spends a challenge of the run.** In every run, a request that completes a
    ceremony answers a challenge that a begin of the run has issued less than five minutes
    before, and that has been completed with less often than issued; it adds one passkey, for
    the account signed in, or one session, for the owner of the passkey that verified, and
    leaves every other account its passkeys. -/
theorem ceremony_completed {C : History Token → Step Token → Prop} {h : History Token}
    (hr : Reaches srv C History.start h) {env : Env} {req : Request Token} {c : String}
    (hdone : completes srv (.request env req, h.world) = some c) :
    (∃ x ∈ h.past, issues srv x = some c ∧ env.now < x.1.env.now + challenge_ttl) ∧
      times_completed srv h c < times_issued srv h c ∧
      ∃ challenge, srv.base64url_to_bytes c = some challenge ∧
        Completed srv env h.world challenge (serve srv env req h.world).2 req := by
  have hk := hr.challenges_kept
  -- only the two routes that answer a challenge complete a ceremony
  have hserved : CompletionServed srv env req h.world (serve srv env req h.world).1
      (serve srv env req h.world).2 := by
    obtain ⟨credentials, route⟩ := req
    cases route
    case register_complete credential label => exact serve_registration
    case passkey_login_complete credential => exact serve_passkey_login hr.consistent
    all_goals
      simp only [completes, Route.presented, ite_self] at hdone
      cases hdone
  cases hserved with
  | failed refused kept =>
    simp only [completes, refused, Bool.false_eq_true, if_false] at hdone
    cases hdone
  | done record challenge succeeded mem presented fresh bytes left completed =>
    have hc : record.challenge = c := by
      simp only [completes, succeeded, if_true, presented] at hdone
      exact Option.some.inj hdone
    subst hc
    obtain ⟨x, hx, hissue, hexpires⟩ := hk.issued record mem
    refine ⟨⟨x, hx, hissue, ?_⟩, hk.unspent record mem, challenge, bytes, completed⟩
    rw [← hexpires]
    exact fresh

/-! ### Crossed ceremonies -/

/-- Two accounts, each signed in. -/
def two_signed_in : List Sample.Line :=
  [⟨4, 103 * second, ⟨none, .login "b@x.org" "correct horse"⟩⟩,
    ⟨3, 102 * second, ⟨none, .login "a@x.org" "correct horse"⟩⟩,
    ⟨2, 101 * second, ⟨none, .register "b@x.org" "correct horse" none⟩⟩,
    ⟨1, 100 * second, ⟨none, .register "a@x.org" "correct horse" none⟩⟩]

def token_a : Payload := access_claims 4096#128 12288#128 (102 * second)

def token_b : Payload := access_claims 8192#128 16384#128 (103 * second)

/-- `a` asks to register a passkey. -/
def asked_by_a : List Sample.Line :=
  ⟨5, 104 * second, ⟨some token_a, .register_begin⟩⟩ :: two_signed_in

/-- `b` answers. -/
def answer_of_b : Sample.Line :=
  ⟨6, 105 * second, ⟨some token_b, .register_complete ⟨some "5", some "key", "key"⟩ none⟩⟩

theorem answer_of_b_completes :
    (∃ x ∈ (Sample.play asked_by_a).past, issues Sample.server x = some "5" ∧
        105 * second < x.1.env.now + challenge_ttl) ∧
      times_completed Sample.server (Sample.play asked_by_a) "5" <
        times_issued Sample.server (Sample.play asked_by_a) "5" ∧
      ∃ challenge, Sample.server.base64url_to_bytes "5" = some challenge ∧
        Completed Sample.server (Sample.env 6 (105 * second)) (Sample.play asked_by_a).world
          challenge (serve Sample.server (Sample.env 6 (105 * second)) answer_of_b.req
            (Sample.play asked_by_a).world).2 answer_of_b.req := by
  have hreach : Reaches Sample.server (Honest Sample.server) .start (Sample.play asked_by_a) :=
    Sample.reaches_play (by decide +kernel)
  have hdone : completes Sample.server (.request (Sample.env 6 (105 * second)) answer_of_b.req,
      (Sample.play asked_by_a).world) = some "5" := by
    decide +kernel
  exact ceremony_completed hreach hdone

/-- A challenge stored for an account is taken for that account only. -/
def AccountBound (srv : Server Token) (h : History Token) : Prop :=
  ∀ x ∈ h.past, ∀ c, completes srv x = some c → ∀ r ∈ x.2.db .passkey_challenge,
    PasskeyChallenge.challenge r = c → ∀ account, r.user_id = some account →
      (∀ p ∈ (x.1.run srv x.2).db .passkey, p ∈ x.2.db .passkey ∨ Passkey.user_id p = account) ∧
      ∀ us ∈ (x.1.run srv x.2).db .user_session,
        us ∈ x.2.db .user_session ∨ UserSession.user_id us = account

/-- The two halves of a registration. -/
def Step.registers_passkey : Step Token → Bool
  | .request _ ⟨_, .register_begin⟩ => true
  | .request _ ⟨_, .register_complete _ _⟩ => true
  | _ => false

/-- A challenge issued by one half of a ceremony completes the other half of it. -/
def CeremonyBound (srv : Server Token) (registers : Bool) (h : History Token) : Prop :=
  ∀ x ∈ h.past, ∀ y ∈ h.past, ∀ c, issues srv x = some c → completes srv y = some c →
    x.1.registers_passkey = registers → y.1.registers_passkey = registers

def registration_of_a : Sample.Line := ⟨7, 106 * second, ⟨some token_a, .register_begin⟩⟩

/-- `b` signs in with the challenge of that registration. -/
def sign_in_of_b : Sample.Line :=
  ⟨8, 107 * second, ⟨none, .passkey_login_complete ⟨some "7", some "key", "key"⟩⟩⟩

def sign_in_of_a : Sample.Line := ⟨9, 108 * second, ⟨none, .passkey_login_begin "a@x.org"⟩⟩

/-- `b` registers a passkey with the challenge of that sign-in. -/
def registration_of_b : Sample.Line :=
  ⟨10, 109 * second, ⟨some token_b, .register_complete ⟨some "9", some "new", "new"⟩ none⟩⟩

def crossed : List Sample.Line :=
  registration_of_b :: sign_in_of_a :: sign_in_of_b :: registration_of_a :: answer_of_b :: asked_by_a

/-- Neither the account nor the half of the ceremony binds a challenge. -/
theorem crossed_ceremonies :
    Reaches Sample.server (Honest Sample.server) .start (Sample.play crossed) ∧
      ¬ AccountBound Sample.server (Sample.play crossed) ∧
      ¬ CeremonyBound Sample.server true (Sample.play crossed) ∧
      ¬ CeremonyBound Sample.server false (Sample.play crossed) := by
  have hpast : ∀ earlier : List Sample.Line, ∀ l : Sample.Line, (Sample.play (l :: earlier)).past =
      (l.step, (Sample.play earlier).world) :: (Sample.play earlier).past := fun _ _ => rfl
  -- B answers the challenge that was issued to A, and the new passkey is B's
  have hanswer : completes Sample.server (answer_of_b.step, (Sample.play asked_by_a).world) =
        some "5" ∧
      (⟨20480#128, some 4096#128, "5", 104 * second + challenge_ttl⟩ : PasskeyChallenge) ∈
        (Sample.play asked_by_a).world.db .passkey_challenge ∧
      ∃ p ∈ ((answer_of_b.step).run Sample.server (Sample.play asked_by_a).world).db .passkey,
        p ∉ (Sample.play asked_by_a).world.db .passkey ∧ Passkey.user_id p ≠ 4096#128 := by
    decide +kernel
  -- A's registration challenge signs B in
  have hregister : issues Sample.server (registration_of_a.step,
        (Sample.play (answer_of_b :: asked_by_a)).world) = some "7" ∧
      completes Sample.server (sign_in_of_b.step,
        (Sample.play (registration_of_a :: answer_of_b :: asked_by_a)).world) = some "7" := by
    decide +kernel
  -- a sign-in challenge stored for A registers a passkey for B
  have hsign_in : issues Sample.server (sign_in_of_a.step, (Sample.play
        (sign_in_of_b :: registration_of_a :: answer_of_b :: asked_by_a)).world) = some "9" ∧
      completes Sample.server (registration_of_b.step, (Sample.play (sign_in_of_a ::
        sign_in_of_b :: registration_of_a :: answer_of_b :: asked_by_a)).world) = some "9" := by
    decide +kernel
  refine ⟨Sample.reaches_play (by decide +kernel), ?_, ?_, ?_⟩
  · intro hbound
    have hend : (answer_of_b.step, (Sample.play asked_by_a).world) ∈ (Sample.play crossed).past := by
      simp only [crossed, hpast, List.mem_cons, true_or, or_true]
    obtain ⟨hdone, hstored, p, hp, hnew, hother⟩ := hanswer
    have hno := (hbound _ hend "5" hdone _ hstored rfl 4096#128 rfl).1
    exact (hno p hp).elim hnew hother
  · intro hbound
    have hbegin : (registration_of_a.step, (Sample.play (answer_of_b :: asked_by_a)).world) ∈
        (Sample.play crossed).past := by
      simp only [crossed, hpast, List.mem_cons, true_or, or_true]
    have hend : (sign_in_of_b.step,
        (Sample.play (registration_of_a :: answer_of_b :: asked_by_a)).world) ∈
          (Sample.play crossed).past := by
      simp only [crossed, hpast, List.mem_cons, true_or, or_true]
    have hkind := hbound _ hbegin _ hend "7" hregister.1 hregister.2 rfl
    cases hkind
  · intro hbound
    have hbegin : (sign_in_of_a.step,
        (Sample.play (sign_in_of_b :: registration_of_a :: answer_of_b :: asked_by_a)).world) ∈
          (Sample.play crossed).past := by
      simp only [crossed, hpast, List.mem_cons, true_or, or_true]
    have hend : (registration_of_b.step, (Sample.play (sign_in_of_a :: sign_in_of_b ::
        registration_of_a :: answer_of_b :: asked_by_a)).world) ∈ (Sample.play crossed).past := by
      simp only [crossed, hpast, List.mem_cons, true_or]
    have hkind := hbound _ hbegin _ hend "9" hsign_in.1 hsign_in.2 rfl
    cases hkind

end CounselReady
