import CounselReady.Framework.SingleUse
import CounselReady.Guarantees.Challenges
import CounselReady.Guarantees.SignCounts

/-! # One Ceremony for a Challenge

    A ceremony looks its challenge up and deletes it, and does not ask whether the
    DELETE has found a row. Two of them that look it up before either has
    committed both go on.

    * `StillStored`: what a commit must find for that not to happen.
    * `challenge_taken_once`: while commits find that, a challenge that is stored
      serves one ceremony at most.
-/

namespace CounselReady

open Relational Framework Handler Prog

variable {Token : Type} {srv : Server Token}

/-! ### Taking and storing -/

/-- The request has taken this challenge. -/
def takes (f : InFlight Token) (challenge_id : Uuid) : Prop :=
  .delete .passkey_challenge challenge_id ∈ f.log

/-- The request has stored this challenge. -/
def stores (f : InFlight Token) (challenge_id : Uuid) : Prop :=
  ∃ r : PasskeyChallenge, .insert .passkey_challenge r ∈ f.log ∧ r.id = challenge_id

def gone (challenge_id : Uuid) (db : Database) : Prop :=
  ∀ r ∈ db .passkey_challenge, PasskeyChallenge.id r ≠ challenge_id

/-- A ceremony commits while the challenge it has taken is on record. -/
def StillStored (_ : TrafficPast Token) (s : Traffic Token) (move : Move (Arrival Token)) : Prop :=
  ∀ n f, move = .commit n → s.running n = some f → ∀ challenge_id, takes f challenge_id →
    ∃ r ∈ s.db .passkey_challenge, PasskeyChallenge.id r = challenge_id

/-- What a ceremony has done when it returns: it has taken the challenge that it answers,
    which was on record when it looked. -/
structure CeremonyDone (f : InFlight Token) (record : PasskeyChallenge) : Prop where
  taken : takes f record.id
  only : ∀ challenge_id, takes f challenge_id → challenge_id = record.id
  answered : f.job.req.route.presented = some record.challenge
  found : ∃ e ∈ f.seen, record ∈ e.rows .passkey_challenge

/-- A session or a passkey that a ceremony has brought costs a stored challenge, and no
    other one costs the same. -/
structure ChallengesOnce (past : TrafficPast Token) : Prop where
  charged : ∀ f ∈ committed past, f.job.req.route.answers_challenge = true →
    ∃ record, CeremonyDone f record
  once : Framework.SpentOnce takes stores past

/-! ### A ceremony -/

def keeps_challenges : Op Row Patch Uuid Ext → Prop
  | .write (.delete .passkey_challenge _) => False
  | _ => True

structure TakesTrace (a : Arrival Token) (presented : String) (record : PasskeyChallenge)
    (after gate l : Trace) : Prop where
  answered : a.req.route.presented = some presented
  trace : l = after ++ ⟨.write (.delete .passkey_challenge record.id), .ok ()⟩ ::
    ⟨.select .passkey_challenge (fun c : PasskeyChallenge => c.challenge == presented), [record]⟩ ::
      gate
  gate : ∀ x ∈ gate, ∃ t p, x.1 = .select t p ∧ t ≠ .passkey_challenge
  after : ∀ x ∈ after, keeps_challenges x.1

theorem takes_trace {a : Arrival Token} (hroute : a.req.route.answers_challenge = true) :
    Ends (fun l _ => ∃ presented record after gate, TakesTrace a presented record after gate l)
      [] (a.handler srv) := by
  obtain ⟨env, ⟨credentials, route⟩⟩ := a
  cases route <;> try exact absurd hroute Bool.false_ne_true
  case register_complete credential label =>
    refine ends_current_user_bind fun claims us account gate hgated => ?_
    refine ends_require_bind fun _ => ?_
    refine ends_consume_challenge_bind fun presented challenge record hpresented _ => ?_
    -- what comes after the challenge is taken leaves the table alone
    have hrest : Confined keeps_challenges (do
        let registered ← verified
          (srv.webauthn_registration (relying_party srv) credential challenge)
        insert .passkey (added_passkey env account registered label)
        pure (.empty : Reply Token)) := by
      refine confined_bind confined_verified fun registered => ?_
      exact confined_bind (confined_insert trivial) fun _ => every_pure _
    refine ends_mono (ends_confined hrest) ?_
    rintro _ _ ⟨after, rfl, hafter⟩
    refine ⟨presented, record, after, gate, hpresented, rfl, fun x hx => ?_, hafter⟩
    obtain ⟨t, p, hop, ht⟩ := hgated.reads x hx
    refine ⟨t, p, hop, ?_⟩
    rcases ht with rfl | rfl
    · decide
    · decide
  case passkey_login_complete credential =>
    refine ends_consume_challenge_bind fun presented challenge record hpresented _ => ?_
    have hrest : Confined keeps_challenges (do
        let credential_id ← some_or (credential.id.bind srv.base64url_to_bytes) invalid_passkey
        let passkey ← some_or (← select_one .passkey (fun p : Passkey =>
          p.credential_id == credential_id)) invalid_passkey
        let account ← some_or (← select_one .user_account (fun a : UserAccount =>
          a.id == passkey.user_id)) invalid_passkey
        require account.active invalid_passkey
        let new_count ← verified (srv.webauthn_authentication (relying_party srv) credential
          challenge passkey.public_key passkey.sign_count)
        update .passkey passkey.id (assertion_patch env passkey new_count)
        let issued ← complete_mfa_login srv env account
        pure (tokens issued)) := by
      refine confined_bind confined_some_or fun credential_id => ?_
      refine confined_bind (confined_select_one trivial) fun found => ?_
      refine confined_bind confined_some_or fun passkey => ?_
      refine confined_bind (confined_select_one trivial) fun holder => ?_
      refine confined_bind confined_some_or fun account => ?_
      refine confined_bind confined_require fun _ => ?_
      refine confined_bind confined_verified fun new_count => ?_
      refine confined_bind (confined_update trivial) fun _ => ?_
      refine confined_bind (confined_bind (confined_bind (confined_insert trivial)
        fun _ => ?_) fun issued => ?_) fun _ => every_pure _
      · exact confined_bind (confined_sign trivial) fun _ => every_pure _
      · exact confined_bind (confined_insert trivial) fun _ => every_pure _
    refine ends_mono (ends_confined hrest) ?_
    rintro _ _ ⟨after, rfl, hafter⟩
    exact ⟨presented, record, after, [], hpresented, rfl, (fun x hx => by cases hx), hafter⟩

theorem ceremony_done {past : TrafficPast Token} {f : InFlight Token}
    (hf : Genuine schema run_ext (Arrival.handler srv) past f)
    (hroute : f.job.req.route.answers_challenge = true) (hret : ∃ reply, f.rest = .ret reply) :
    ∃ record, CeremonyDone f record := by
  obtain ⟨reply, hret⟩ := hret
  have hout := hf.traced.outline (takes_trace hroute) hf.keyed
  rw [hret] at hout
  obtain ⟨presented, record, after, gate, hanswered, htrace, hgate, hafter⟩ := hout
  -- the row that was read is one that was there, with the challenge presented
  obtain ⟨e, he, _, _, hrows⟩ := hf.first_select
    ((List.append_assoc after [_] _).trans htrace.symm).symm hgate
  have hrow : record ∈ (e.rows .passkey_challenge).filter
      (fun c : PasskeyChallenge => c.challenge == presented) := by
    rw [← hrows]
    exact List.mem_singleton_self record
  obtain ⟨hmem, hmatch⟩ := List.mem_filter.mp hrow
  refine ⟨record, ?_, fun challenge_id htakes => ?_, ?_, e, he, hmem⟩
  · refine mem_wrote_of_mem ?_
    rw [htrace]
    exact List.mem_append_right _ List.mem_cons_self
  · have hcall := mem_wrote htakes
    rw [htrace] at hcall
    rcases List.mem_append.mp hcall with hlate | hcall
    · exact (hafter _ hlate).elim
    · rcases List.mem_cons.mp hcall with heq | hcall
      · cases heq
        rfl
      · rcases List.mem_cons.mp hcall with heq | hearly
        · cases heq
        · obtain ⟨t, p, hop, _⟩ := hgate _ hearly
          cases hop
  · rw [hanswered, beq_iff_eq.mp hmatch]

/-! ### What a commit does to the challenges -/

section commits
variable {past : TrafficPast Token} {s : Traffic Token} {f : InFlight Token} {db db' : Database}
  {challenge_id : Uuid}

theorem answers_asks_none {route : Route Token} (h : route.answers_challenge = true) :
    route.asks_challenge = false := by
  cases route <;> first | rfl | cases h

/-- A challenge that is gone comes back when it is stored again. -/
theorem gone_kept {ws : List (Write Row Patch Uuid)} (hgone : gone challenge_id db)
    (hnot : ∀ r : PasskeyChallenge, .insert .passkey_challenge r ∈ ws → r.id ≠ challenge_id)
    (hredo : redo schema ws db = some db') : gone challenge_id db' := by
  refine redo_invariant (J := gone challenge_id) hredo hgone ?_
  intro w hw db _ hdb r hr
  rcases Schema.mem_effect_resolve (rigid (by decide)) hr with hold | rfl | ⟨_, patch, _⟩
  · exact hdb r hold
  · exact hnot r hw
  · exact patch.elim

theorem gone_after (hf : Genuine schema run_ext (Arrival.handler srv) past f)
    (htakes : takes f challenge_id) (hredo : redo schema f.log s.db = some db') :
    gone challenge_id db' := by
  have hanswers : f.job.req.route.answers_challenge = true := log_permitted hf htakes
  obtain ⟨ws, ws', hlog⟩ := List.append_of_mem htakes
  rw [hlog] at hredo
  obtain ⟨db₁, _, _, hrest⟩ := redo_split hredo
  refine gone_kept ?_ (fun r hr => ?_) hrest
  · intro r hr hid
    have hleft : r ∈ schema.effect (.remove (schema.doomed db₁ .passkey_challenge challenge_id)) db₁
        .passkey_challenge := hr
    rw [deleted_alone challenge_leaf (rigid (by decide))] at hleft
    have hne := of_decide_eq_true (List.mem_filter.mp hleft).2
    exact hne (congrArg (Prod.mk Table.passkey_challenge) hid)
  · -- a ceremony that answers a challenge asks none
    have hin : .insert .passkey_challenge r ∈ f.log := by
      rw [hlog]
      exact List.mem_append_right _ (List.mem_cons_of_mem _ hr)
    have hasks : f.job.req.route.asks_challenge = true := (log_permitted hf hin).2
    rw [answers_asks_none hanswers] at hasks
    cases hasks

end commits

/-! ### Runs -/

section runs
variable {ext : Outside} {past : TrafficPast Token} {s : Traffic Token}

/-- **A challenge serves one ceremony.** In every run whose commits are all `StillStored`,
    however its requests interleave. -/
theorem challenge_taken_once (hr : Run (traffic srv) StillStored (Traffic.start ext) past s) :
    ChallengesOnce past := by
  have h0 : ∀ n, (Traffic.start ext : Traffic Token).running n = none := fun _ => rfl
  constructor
  · intro f hf hroute
    obtain ⟨hgenuine, hret⟩ := (run_genuine hr h0).2 f hf
    exact ceremony_done hgenuine hroute hret
  · refine run_once gone hr h0 ?_ ?_ ?_
    · intro past s f db hcommits challenge_id htakes
      exact gone_after hcommits.genuine htakes hcommits.redone
    · intro past s f db hcommits challenge_id hnot hgone
      exact gone_kept hgone (fun r hin hid => hnot ⟨r, hin, hid⟩) hcommits.redone
    · intro past s f db hcommits challenge_id htakes hgone
      obtain ⟨n, hstill, hflies⟩ := hcommits.allowed
      obtain ⟨r, hr, hid⟩ := hstill n f rfl hflies challenge_id htakes
      exact hgone r hr hid

/-- One after another, ceremonies find their challenges. -/
theorem stored_one_by_one {as : List (Arrival Token)} {w : Committed}
    (h : one_by_one srv ext as = some w) :
    ∃ past, Run (traffic srv) StillStored (Traffic.start ext) past
      ⟨w.db, w.ext, fun _ => none⟩ := by
  refine run_one_by_one ?_ ?_ ?_ h
  · intro _ _ _ _ _ _ hmove
    cases hmove
  · intro _ _ _ _ _ hmove
    cases hmove
  · intro past s f reply hr hflies _ hret hrows n g hmove hg challenge_id htakes
    obtain rfl := Move.commit.inj hmove
    obtain rfl : f = g := Option.some.inj (hflies.symm.trans hg)
    have hgenuine := (run_genuine hr fun _ => rfl).1 0 f hflies
    obtain ⟨record, hdone⟩ := ceremony_done hgenuine (log_permitted hgenuine htakes) ⟨reply, hret⟩
    obtain ⟨e, he, hrow⟩ := hdone.found
    rw [hrows e he] at hrow
    exact ⟨record, hrow, (hdone.only challenge_id htakes).symm⟩

end runs

/-! ### One assertion presented twice at once, and once -/

namespace Sample

/-- An assertion under the challenge `"6"`. -/
def assertion_at (serial : Nat) : Line :=
  ⟨serial, 106 * second, ⟨none, .passkey_login_complete ⟨some "6", some "key", "key"⟩⟩⟩

/-- Two requests with this assertion have both done all they do when the first one commits. -/
def presented_twice : List (Turn (Arrival Payload)) :=
  List.replicate 8 (.move (.call 2)) ++ List.replicate 8 (.move (.call 1)) ++
    [.move (.begin 2 (assertion_at 9).arrival), .move (.begin 1 (assertion_at 8).arrival)] ++
      challenged.flatMap whole

def taken_by (f : InFlight Payload) : List Uuid :=
  f.log.filterMap (fun w => match w with
    | .delete .passkey_challenge challenge_id => some challenge_id
    | _ => none)

theorem takes_of_taken_by {f : InFlight Payload} {challenge_id : Uuid}
    (h : challenge_id ∈ taken_by f) : takes f challenge_id := by
  obtain ⟨w, hw, hsome⟩ := List.mem_filterMap.mp h
  split at hsome
  · cases hsome
    exact hw
  · cases hsome

/-- Both of them have taken the same challenge. -/
def take_same (s : Traffic Payload) : Bool :=
  match s.running 1, s.running 2 with
  | some f, some g => (taken_by f).any (fun challenge_id => decide (challenge_id ∈ taken_by g))
  | _, _ => false

theorem takes_of_take_same {s : Traffic Payload} (h : take_same s = true) :
    ∃ f g challenge_id, s.running 1 = some f ∧ s.running 2 = some g ∧ takes f challenge_id ∧
      takes g challenge_id := by
  unfold take_same at h
  split at h
  · next f g hf hg =>
    obtain ⟨challenge_id, hfirst, hsecond⟩ := List.any_eq_true.mp h
    exact ⟨f, g, challenge_id, hf, hg, takes_of_taken_by hfirst,
      takes_of_taken_by (of_decide_eq_true hsecond)⟩
  · cases h

abbrev advance_move (move : Move (Arrival Payload)) (s : Traffic Payload) :
    Option (Traffic Payload) :=
  advance schema run_ext (Arrival.handler secret_server) move s

end Sample

/-- Both of them commit, each with a session for the one challenge. -/
theorem challenge_taken_twice :
    ¬ ∀ past s, Run (traffic Sample.secret_server) unrestricted
        (Traffic.start Sample.nothing_stored) past s → ChallengesOnce past := by
  intro hall
  have hscript : (Sample.play_script Sample.presented_twice).any (fun s => Sample.take_same s &&
      (Sample.advance_move (.commit 1) s).any (fun s₁ =>
        (Sample.advance_move (.commit 2) s₁).isSome)) = true := by
    decide +kernel
  obtain ⟨s, hs, hboth⟩ := (Option.any_eq_true _ _).mp hscript
  obtain ⟨hsame, hcommits⟩ := Bool.and_eq_true_iff.mp hboth
  obtain ⟨s₁, hs₁, hcommits⟩ := (Option.any_eq_true _ _).mp hcommits
  obtain ⟨s₂, hs₂⟩ := Option.isSome_iff_exists.mp hcommits
  obtain ⟨f, g, challenge_id, hf, hg, hfirst, hsecond⟩ := Sample.takes_of_take_same hsame
  obtain ⟨past, hr⟩ := run_turns hs
  obtain ⟨past', hr', hcommitted⟩ := run_two_commits hr (by decide) hf hg hs₁ hs₂
  exact (hall past' s₂ hr').once [] g [] f _ challenge_id hcommitted
    (fun _ h => absurd h List.not_mem_nil) hfirst hsecond

/-- The assertion has brought a session when it is presented again: that request, still in
    flight, is refused. -/
theorem taken_challenge_refused :
    ∃ past s, Run (traffic Sample.secret_server) StillStored
        (Traffic.start Sample.nothing_stored) past s ∧
      (s.db .user_session).length = 2 ∧
      (∃ f e, s.running 1 = some f ∧ f.rest = .raise (.http e) ∧ e.status = 401) ∧
      ChallengesOnce past := by
  have hscript : (Sample.joined_by Sample.secret_server
      (Sample.assertion_at 8 :: Sample.challenged) (Sample.assertion_at 9) 1).any (fun s =>
        decide ((s.db .user_session).length = 2) && Sample.refuses_newcomer 401 s) = true := by
    decide +kernel
  obtain ⟨s, hs, hboth⟩ := (Option.any_eq_true _ _).mp hscript
  obtain ⟨htwo, hrefused⟩ := Bool.and_eq_true_iff.mp hboth
  obtain ⟨past, hr⟩ := Sample.run_joined_by StillStored
    (fun w hw => stored_one_by_one hw) (fun _ _ _ _ _ _ hmove => by cases hmove)
    (fun _ _ _ _ _ hmove => by cases hmove) hs
  exact ⟨past, s, hr, of_decide_eq_true htwo, Sample.refused_of_refuses hrefused,
    challenge_taken_once hr⟩

end CounselReady
