import CounselReady.Guarantees.ChallengesOnce

/-! # One Request for a Code

    A code is accepted after a look at what has been used, and what it uses is
    written to the row afterwards. Two requests that look before either has
    committed both accept it.

    * `StillUnused`: what a commit must find for that not to happen.
    * `codes_used_once`: while commits find that, a time step or a recovery code of
      an enrolment is accepted by one request at most, and the last used counter
      never falls.
-/

namespace CounselReady

open Relational Framework Handler Prog

variable {Token : Type} {srv : Server Token}

/-! ### What a code uses -/

inductive CodeUse where
  | step (enrolment_id : Uuid) (step : Int)
  | recovery (code_id : Uuid)

/-- The request has accepted a code by this. -/
def uses (f : InFlight Token) : CodeUse → Prop
  | .step enrolment_id step => .update .user_mfa enrolment_id (.consume step) ∈ f.log
  | .recovery code_id => ∃ now, .update .recovery_code code_id (.use now) ∈ f.log

/-- The request has begun this enrolment, or begun it again, or confirmed it. -/
def enrols (f : InFlight Token) (enrolment_id : Uuid) : Prop :=
  (∃ m : UserMfa, .insert .user_mfa m ∈ f.log ∧ m.id = enrolment_id) ∨
    ∃ patch : MfaPatch, .update .user_mfa enrolment_id patch ∈ f.log ∧
      ∀ step, patch ≠ .consume step

/-- The request has set this up, once more perhaps. -/
def renews (f : InFlight Token) : CodeUse → Prop
  | .step enrolment_id _ => enrols f enrolment_id
  | .recovery code_id => ∃ c : RecoveryCode, .insert .recovery_code c ∈ f.log ∧ c.id = code_id

/-- The rows admit it. -/
def Unused : CodeUse → Database → Prop
  | .step enrolment_id step, db => ∃ m ∈ db .user_mfa, UserMfa.id m = enrolment_id ∧
      ∀ last, m.last_used_counter = some last → last < step
  | .recovery code_id, db => ∃ c ∈ db .recovery_code, RecoveryCode.id c = code_id ∧ c.used_at = none

/-- A request that has accepted a code commits while the rows still admit it. -/
def StillUnused (_ : TrafficPast Token) (s : Traffic Token) (move : Move (Arrival Token)) : Prop :=
  ∀ n f, move = .commit n → s.running n = some f → ∀ use, uses f use → Unused use s.db

def Route.given_code : Route Token → Option String
  | .mfa_verify _ code => some code
  | .mfa_disable _ code => some code
  | .delete_own_account _ mfa_code _ => mfa_code
  | _ => none

/-- What the acceptance of a code writes: the time step that shows it, or the recovery code
    that has its digest. -/
inductive Spends (srv : Server Token) (env : Env) (code : String) : Write Row Patch Uuid → Prop where
  | totp {m : UserMfa} {step : Int} (right : CodeMatches srv env m code step) :
      Spends srv env code (.update .user_mfa m.id (.consume step))
  | recovery {c : RecoveryCode} (right : c.digest = hash_recovery_code srv code) :
      Spends srv env code (.update .recovery_code c.id (.use env.now))

def spends_code : Write Row Patch Uuid → Bool
  | .update .user_mfa _ (.consume _) => true
  | .update .recovery_code _ _ => true
  | _ => false

/-- The request has accepted the code it was given, and no other. -/
def Charged (srv : Server Token) (f : InFlight Token) : Prop :=
  ∃ code w, f.job.req.route.given_code = some code ∧ Spends srv f.job.env code w ∧ w ∈ f.log ∧
    ∀ w' ∈ f.log, spends_code w' = true → w' = w

/-- What is committed after a check has cost a code, and nothing else that is committed costs
    the same, unless it has been set up again. A deletion may do without. -/
structure CodesOnce (srv : Server Token) (past : TrafficPast Token) : Prop where
  charged : ∀ f ∈ committed past, f.job.req.route.checks_code = true → Charged srv f ∨
    (f.job.req.route.deletes_account = true ∧ ∀ w ∈ f.log, spends_code w = false)
  once : Framework.SpentOnce uses renews past

/-- The last used counter of an enrolment does not fall, unless the move enrols it. -/
def CountersKept (s : Traffic Token) (move : Move (Arrival Token)) (s' : Traffic Token) : Prop :=
  ∀ m ∈ s.db .user_mfa, (∀ n f, move = .commit n → s.running n = some f → ¬ enrols f (UserMfa.id m)) →
    ∀ m' ∈ s'.db .user_mfa, UserMfa.id m' = m.id → ∀ last, m.last_used_counter = some last →
      ∃ last', UserMfa.last_used_counter m' = some last' ∧ last ≤ last'

/-! ### What a request has done when it returns -/

def idle : Op Row Patch Uuid Ext → Prop
  | .write w => spends_code w = false
  | _ => True

def looks : Op Row Patch Uuid Ext → Prop
  | .select _ _ => True
  | _ => False

/-- What is used has been read, and was unused. -/
inductive FoundUnused (reads : Trace) : Write Row Patch Uuid → Prop where
  | step {m : UserMfa} {p : UserMfa → Bool} {step : Int}
      (read : ⟨.select .user_mfa p, [m]⟩ ∈ reads)
      (ahead : ∀ last, m.last_used_counter = some last → last < step) :
      FoundUnused reads (.update .user_mfa m.id (.consume step))
  | recovery {c : RecoveryCode} {p : RecoveryCode → Bool} {now : Nat}
      (read : ⟨.select .recovery_code p, [c]⟩ ∈ reads) (unused : c.used_at = none) :
      FoundUnused reads (.update .recovery_code c.id (.use now))

-- a code is looked for by the rules of the trace, never by trying the steps
attribute [local irreducible] matching_counter

/-- One statement accepts the code, and the others are idle. -/
structure SpendTrace (srv : Server Token) (a : Arrival Token) (code : String)
    (w : Write Row Patch Uuid) (after before l : Trace) : Prop where
  given : a.req.route.given_code = some code
  spends : Spends srv a.env code w
  trace : l = after ++ ⟨.write w, .ok ()⟩ :: before
  found : FoundUnused before w
  after : ∀ x ∈ after, idle x.1
  before : ∀ x ∈ before, looks x.1

section trace
variable {β : Type} {l : Trace}

theorem ends_verify_code {env : Env} {account : UserAccount} {code : String}
    {Q : Trace → Unit → Prop} (hQ : ∀ w reads, Spends srv env code w → FoundUnused reads w →
      (∀ x ∈ reads, looks x.1) → Q (⟨.write w, .ok ()⟩ :: (reads ++ l)) ()) :
    Ends Q l (verify_code_for_login srv env account code) := by
  refine ends_select_one_bind ?_ fun m _ _ _ => ?_
  · exact ends_some_or_bind fun _ h => by cases h
  refine ends_some_or_bind fun record hrecord => ?_
  cases hrecord
  refine ends_require_bind fun _ => ?_
  refine ends_decrypt_secret_bind fun key secret hkey hsecret => ?_
  refine ends_matching_counter_bind ?_ fun step hcode hlow hhigh => ?_
  · -- no time step shows it: the recovery codes
    refine ends_select_one_bind ?_ fun c r hid hr => ?_
    · exact ends_some_or_bind fun _ h => by cases h
    refine ends_some_or_bind fun recovery hrecovery => ?_
    cases hrecovery
    refine ends_require_bind fun hnone => ends_execute ?_
    have hsame : RecoveryCode.id r = c.id := hid
    have hunused : RecoveryCode.used_at c = none := Option.isNone_iff_eq_none.mp hnone
    have hdigest : RecoveryCode.digest r = hash_recovery_code srv code := by
      simp only [Bool.and_eq_true, beq_iff_eq] at hr
      exact hr.2
    have hspends : Spends srv env code (.update .recovery_code c.id (.use env.now)) := by
      rw [← hsame]
      exact .recovery hdigest
    refine hQ _ [_, _] hspends (.recovery List.mem_cons_self hunused) fun x hx => ?_
    rcases List.mem_cons.mp hx with rfl | hx
    · trivial
    · obtain rfl := List.mem_singleton.mp hx
      trivial
  · -- a time step shows it: one later than the last that was accepted
    refine ends_require_bind fun hahead => ends_execute ?_
    have hunused : ∀ last, UserMfa.last_used_counter m = some last → last < step := by
      intro last hlast
      rw [hlast] at hahead
      exact of_decide_eq_true hahead
    refine hQ _ [_] (.totp ⟨key, secret, hkey, hsecret, hcode, hlow, hhigh⟩)
      (.step List.mem_cons_self hunused) fun x hx => ?_
    obtain rfl := List.mem_singleton.mp hx
    trivial

theorem idle_select {t : Table} {p : Row t → Bool} : idle (.select t p) := trivial

theorem select_of_looks {o : Op Row Patch Uuid Ext} (h : looks o) : ∃ t p, o = .select t p := by
  cases o with
  | select t p => exact ⟨t, p, rfl⟩
  | snapshot => exact h.elim
  | write w => exact h.elim
  | ext e => exact h.elim

theorem looks_idle {o : Op Row Patch Uuid Ext} (h : looks o) : idle o := by
  obtain ⟨t, p, rfl⟩ := select_of_looks h
  trivial

theorem FoundUnused.mono {reads before : Trace} {w : Write Row Patch Uuid}
    (h : FoundUnused reads w) : FoundUnused (reads ++ before) w := by
  cases h with
  | step read ahead => exact .step (List.mem_append_left _ read) ahead
  | recovery read unused => exact .recovery (List.mem_append_left _ read) unused

theorem Gated.looks {a : Arrival Token} {claims : AccessTokenClaims} {us : UserSession}
    {account : UserAccount} {l : Trace} (h : Gated srv a claims us account l) :
    ∀ x ∈ l, CounselReady.looks x.1 := by
  intro x hx
  obtain ⟨t, p, hop, _⟩ := h.reads x hx
  rw [hop]
  trivial

theorem confined_signed_in {env : Env} {account : UserAccount} :
    Confined idle (complete_mfa_login srv env account >>= fun issued => pure (tokens issued)) := by
  refine confined_bind (confined_bind (confined_bind (confined_insert rfl) fun _ => ?_)
    fun issued => ?_) fun _ => every_pure _
  · exact confined_bind (confined_sign trivial) fun _ => every_pure _
  · exact confined_bind (confined_insert rfl) fun _ => every_pure _

theorem confined_delete_every {t : Table} {ids : List Uuid} : Confined idle (delete_all t ids) := by
  induction ids with
  | nil => exact every_pure _
  | cons id ids ih => exact confined_bind (confined_delete rfl) fun _ => ih

theorem confined_factor {user_id : Uuid} : Confined looks (is_mfa_active user_id) :=
  confined_bind (confined_select_one trivial) fun _ => every_pure _

theorem confined_disabled {account : UserAccount} :
    Confined idle ((disable_mfa account).rethrow disable_answer >>= fun _ =>
      pure (.empty : Reply Token)) := by
  refine confined_bind ((every_rethrow _ _).mpr ?_) fun _ => every_pure _
  refine confined_bind (confined_select_one idle_select) fun found => ?_
  refine confined_bind confined_some_or fun record => ?_
  refine confined_bind confined_require fun _ => ?_
  refine confined_bind (confined_delete rfl) fun _ => ?_
  exact confined_bind (every_select idle_select) fun _ => confined_delete_every

/-- The check, and what is idle around it. -/
theorem ends_checked {a : Arrival Token} {code : String} {account : UserAccount} {answer : Exc → Exc}
    {f : Unit → Handler β} (hgiven : a.req.route.given_code = some code)
    (hl : ∀ x ∈ l, looks x.1) (hf : Confined idle (f ())) :
    Ends (fun l' _ => ∃ w after before, SpendTrace srv a code w after before l') l
      ((verify_code_for_login srv a.env account code).rethrow answer >>= f) := by
  refine ends_bind ((outline_rethrow _ _).mpr (ends_verify_code fun w reads hspends hfound hreads => ?_))
  refine ends_mono (ends_confined hf) ?_
  rintro _ _ ⟨after, rfl, hafter⟩
  refine ⟨w, after, reads ++ l, hgiven, hspends, rfl, hfound.mono, hafter, fun x hx => ?_⟩
  rcases List.mem_append.mp hx with hread | hbefore
  · exact hreads x hread
  · exact hl x hbefore

/-- **The routes that check a code.** One of them may delete an account that has no
    second factor, and then no code is spent. -/
theorem spend_trace {a : Arrival Token} (hroute : a.req.route.checks_code = true) :
    Ends (fun l _ => (∃ code w after before, SpendTrace srv a code w after before l) ∨
      (a.req.route.deletes_account = true ∧ ∀ x ∈ l, idle x.1)) [] (a.handler srv) := by
  obtain ⟨env, ⟨credentials, route⟩⟩ := a
  cases route <;> try exact absurd hroute Bool.false_ne_true
  case mfa_verify challenge_token code =>
    refine ends_require_bind fun _ => ?_
    refine ends_require_bind fun _ => ?_
    refine ends_some_or_bind fun user_id _ => ?_
    refine ends_select_one_bind ?_ fun account _ _ _ => ?_
    · exact ends_some_or_bind fun _ h => by cases h
    refine ends_some_or_bind fun account' haccount => ?_
    cases haccount
    refine ends_require_bind fun _ => ?_
    refine ends_mono (ends_checked (a := ⟨env, ⟨credentials, .mfa_verify challenge_token code⟩⟩) rfl
      (fun x hx => ?_) confined_signed_in) fun l _ h => .inl ⟨code, h⟩
    obtain rfl := List.mem_singleton.mp hx
    trivial
  case mfa_disable password code =>
    refine ends_current_user_bind fun claims us account gate hgated => ?_
    refine ends_require_bind fun _ => ?_
    refine ends_require_bind fun _ => ?_
    refine ends_require_bind fun _ => ?_
    exact ends_mono (ends_checked (a := ⟨env, ⟨credentials, .mfa_disable password code⟩⟩) rfl
      hgated.looks confined_disabled) fun l _ h => .inl ⟨code, h⟩
  case delete_own_account password mfa_code acknowledge =>
    refine ends_current_user_bind fun claims us account gate hgated => ?_
    refine ends_require_bind fun _ => ?_
    refine ends_require_bind fun _ => ?_
    refine ends_require_bind fun _ => ?_
    refine ends_bind (ends_require_bind fun _ => ?_)
    refine ends_bind (ends_mono (ends_confined confined_factor) ?_)
    rintro _ active ⟨tail, rfl, htail⟩
    have hlooks : ∀ x ∈ tail ++ gate, looks x.1 := by
      intro x hx
      rcases List.mem_append.mp hx with hlate | hearly
      · exact htail x hlate
      · exact hgated.looks x hearly
    -- the second factor is asked for only if there is one
    cases active with
    | true =>
      refine ends_some_or_bind fun code hcode => (outline_bind _ _).mp ?_
      refine ends_mono (ends_checked (f := fun _ => destroy account)
        (a := ⟨env, ⟨credentials, .delete_own_account password mfa_code acknowledge⟩⟩) hcode hlooks
        (confined_destroy (fun _ _ => trivial) trivial rfl fun _ => trivial)) ?_
      exact fun l _ h => .inl ⟨code, h⟩
    | false =>
      show Ends _ (tail ++ gate) (destroy account)
      have hdestroy : Confined idle (destroy account : Handler (Reply Token)) :=
        confined_destroy (fun _ _ => trivial) trivial rfl fun _ => trivial
      refine ends_mono (ends_confined hdestroy) ?_
      rintro _ _ ⟨after, rfl, hafter⟩
      refine .inr ⟨rfl, fun x hx => ?_⟩
      rcases List.mem_append.mp hx with hlate | hearly
      · exact hafter x hlate
      · exact looks_idle (hlooks x hearly)

end trace

/-! ### What a commit does to the codes -/

section commits
variable {past : TrafficPast Token} {s : Traffic Token} {f : InFlight Token} {db db' : Database}
  {use : CodeUse}

theorem code_traced (hf : Genuine schema run_ext (Arrival.handler srv) past f)
    (hroute : f.job.req.route.checks_code = true) (hret : ∃ reply, f.rest = .ret reply) :
    (∃ code w after before,
      SpendTrace srv f.job code w after before (f.seen.map Event.exchange)) ∨
      (f.job.req.route.deletes_account = true ∧ ∀ x ∈ f.seen.map Event.exchange, idle x.1) := by
  obtain ⟨reply, hret⟩ := hret
  have hout := hf.traced.outline (spend_trace hroute) hf.keyed
  rw [hret] at hout
  exact hout

/-- The other statements spend nothing. -/
theorem SpendTrace.only {a : Arrival Token} {code : String} {w w' : Write Row Patch Uuid}
    {after before l : Trace} (h : SpendTrace srv a code w after before l) (hw' : w' ∈ wrote l)
    (hspends : spends_code w' = true) : w' = w := by
  have hquiet : ¬ idle (.write w') := by
    show spends_code w' ≠ false
    rw [hspends]
    exact Bool.true_eq_false_eq_False
  have hcall := mem_wrote hw'
  rw [h.trace] at hcall
  rcases List.mem_append.mp hcall with hafter | hcall
  · exact absurd (h.after _ hafter) hquiet
  · rcases List.mem_cons.mp hcall with heq | hbefore
    · cases heq
      rfl
    · exact absurd (looks_idle (h.before _ hbefore)) hquiet

theorem code_spent (hf : Genuine schema run_ext (Arrival.handler srv) past f)
    (hroute : f.job.req.route.checks_code = true) (hret : ∃ reply, f.rest = .ret reply) :
    Charged srv f ∨ (f.job.req.route.deletes_account = true ∧ ∀ w ∈ f.log, spends_code w = false) := by
  rcases code_traced hf hroute hret with ⟨code, w, after, before, htrace⟩ | ⟨hdeletes, hidle⟩
  · refine .inl ⟨code, w, htrace.given, htrace.spends, ?_, fun w' => htrace.only⟩
    refine mem_wrote_of_mem ?_
    rw [htrace.trace]
    exact List.mem_append_right _ List.mem_cons_self
  · exact .inr ⟨hdeletes, fun w hw => hidle _ (mem_wrote hw)⟩

/-- The statement that uses something, and the only one of its kind in its log. -/
theorem use_written (hf : Genuine schema run_ext (Arrival.handler srv) past f)
    (hret : ∃ reply, f.rest = .ret reply) {w : Write Row Patch Uuid} (hw : w ∈ f.log)
    (hspends : spends_code w = true) :
    f.job.req.route.checks_code = true ∧ ∀ w' ∈ f.log, spends_code w' = true → w' = w := by
  have hpermitted := log_permitted hf hw
  have hroute : f.job.req.route.checks_code = true := by
    unfold spends_code at hspends
    split at hspends
    · exact hpermitted
    · exact hpermitted
    · cases hspends
  refine ⟨hroute, fun w' hw' hspends' => ?_⟩
  rcases code_spent hf hroute hret with ⟨code, w₀, _, _, _, honly⟩ | ⟨_, hidle⟩
  · rw [honly w' hw' hspends', honly w hw hspends]
  · rw [hidle w hw] at hspends
    cases hspends

/-- The rows show that it has been used. -/
def used_up : CodeUse → Database → Prop
  | .step enrolment_id step, db => ∀ m ∈ db .user_mfa, UserMfa.id m = enrolment_id →
      ∃ last, m.last_used_counter = some last ∧ step ≤ last
  | .recovery code_id, db => ∀ c ∈ db .recovery_code, RecoveryCode.id c = code_id →
      RecoveryCode.used_at c ≠ none

/-- The statement does not set it up again, nor put the counter back. -/
def KeepsUsed : CodeUse → Write Row Patch Uuid → Prop
  | .step enrolment_id step, w =>
      (∀ m : UserMfa, w = .insert .user_mfa m → m.id ≠ enrolment_id) ∧
        ∀ patch, w = .update .user_mfa enrolment_id patch →
          ∃ step', patch = MfaPatch.consume step' ∧ step ≤ step'
  | .recovery code_id, w => ∀ c : RecoveryCode, w = .insert .recovery_code c → c.id ≠ code_id

theorem used_kept {ws : List (Write Row Patch Uuid)} (h : used_up use db)
    (hkeeps : ∀ w ∈ ws, KeepsUsed use w) (hredo : redo schema ws db = some db') :
    used_up use db' := by
  refine redo_invariant hredo h fun w hw db _ hdb => ?_
  have hkeep := hkeeps w hw
  cases use with
  | step enrolment_id step =>
    intro m' hm' hid
    rcases Schema.mem_effect_resolve (rigid (by decide)) hm' with hold | rfl |
      ⟨id, patch, m, hm, rfl, hpk, rfl⟩
    · exact hdb m' hold hid
    · exact absurd hid (hkeep.1 m' rfl)
    · have hsame : UserMfa.id (MfaPatch.apply patch m) = m.id := by cases patch <;> rfl
      obtain rfl : id = enrolment_id := hpk.symm.trans (hsame.symm.trans hid)
      obtain ⟨step', rfl, hle⟩ := hkeep.2 patch rfl
      exact ⟨step', rfl, hle⟩
  | recovery code_id =>
    intro c' hc' hid
    rcases Schema.mem_effect_resolve (rigid (by decide)) hc' with hold | rfl |
      ⟨id, patch, c, hc, rfl, hpk, rfl⟩
    · exact hdb c' hold hid
    · exact absurd hid (hkeep c' rfl)
    · cases patch
      exact Option.some_ne_none _

theorem checks_sets_nothing_up {route : Route Token} (h : route.checks_code = true) :
    route.sets_up = false ∧ route.confirms = false := by
  cases route <;> first | exact ⟨rfl, rfl⟩ | cases h

/-- A request that checks a code sets nothing up. -/
theorem checks_renew_nothing (hf : Genuine schema run_ext (Arrival.handler srv) past f)
    (hroute : f.job.req.route.checks_code = true) : ¬ renews f use := by
  obtain ⟨hsets, hconfirms⟩ := checks_sets_nothing_up hroute
  intro hrenews
  cases use with
  | step enrolment_id step =>
    rcases hrenews with ⟨m, hw, _⟩ | ⟨patch, hw, hother⟩
    · have hpermitted : f.job.req.route.sets_up = true ∧ _ := (log_permitted hf hw).2
      rw [hsets] at hpermitted
      cases hpermitted.1
    · have hpermitted := log_permitted hf hw
      cases patch with
      | restart secret clears => exact Bool.false_ne_true (hsets.symm.trans hpermitted)
      | confirm now step => exact Bool.false_ne_true (hconfirms.symm.trans hpermitted)
      | consume step => exact hother step rfl
  | recovery code_id =>
    obtain ⟨c, hw, _⟩ := hrenews
    have hpermitted : f.job.req.route.sets_up = true := (log_permitted hf hw).2
    exact Bool.false_ne_true (hsets.symm.trans hpermitted)

theorem log_keeps_used (hnot : ¬ renews f use)
    (hahead : ∀ enrolment_id step step', use = .step enrolment_id step →
      .update .user_mfa enrolment_id (MfaPatch.consume step') ∈ f.log → step ≤ step') :
    ∀ w ∈ f.log, KeepsUsed use w := by
  intro w hw
  cases use with
  | step enrolment_id step =>
    constructor
    · rintro m rfl hid
      exact hnot (.inl ⟨m, hw, hid⟩)
    · rintro patch rfl
      cases patch with
      | consume step' => exact ⟨step', rfl, hahead enrolment_id step step' rfl hw⟩
      | restart secret clears => exact absurd (.inr ⟨_, hw, fun _ h => by cases h⟩) hnot
      | confirm now step' => exact absurd (.inr ⟨_, hw, fun _ h => by cases h⟩) hnot
  | recovery code_id =>
    rintro c rfl hid
    exact hnot ⟨c, hw, hid⟩

/-- The statement that uses it. -/
inductive UsedBy : CodeUse → Write Row Patch Uuid → Prop where
  | step (enrolment_id : Uuid) (step : Int) :
      UsedBy (.step enrolment_id step) (.update .user_mfa enrolment_id (.consume step))
  | recovery (code_id : Uuid) (now : Nat) :
      UsedBy (.recovery code_id) (.update .recovery_code code_id (.use now))

theorem used_at_once {w : Write Row Patch Uuid} (hby : UsedBy use w) (db : Database) :
    used_up use (schema.effect (schema.resolve db w) db) := by
  cases hby with
  | step enrolment_id step =>
    intro m' hm' hid
    obtain ⟨m, _, rfl⟩ := Schema.mem_effect_update.mp hm'
    have hself : UserMfa.id m = enrolment_id :=
      (schema.pk_patched .user_mfa enrolment_id (.consume step) m).symm.trans hid
    rw [Schema.patched_of_eq hself]
    exact ⟨step, rfl, Int.le_refl step⟩
  | recovery code_id now =>
    intro c' hc' hid
    obtain ⟨c, _, rfl⟩ := Schema.mem_effect_update.mp hc'
    have hself : RecoveryCode.id c = code_id :=
      (schema.pk_patched .recovery_code code_id (.use now) c).symm.trans hid
    rw [Schema.patched_of_eq hself]
    exact Option.some_ne_none now

theorem used_by (huses : uses f use) : ∃ w ∈ f.log, UsedBy use w ∧ spends_code w = true := by
  cases use with
  | step enrolment_id step => exact ⟨_, huses, .step enrolment_id step, rfl⟩
  | recovery code_id =>
    obtain ⟨now, hin⟩ := huses
    exact ⟨_, hin, .recovery code_id now, rfl⟩

/-- A commit that has used something leaves it used up. -/
theorem used_after (hf : Genuine schema run_ext (Arrival.handler srv) past f)
    (hret : ∃ reply, f.rest = .ret reply) (huses : uses f use)
    (hredo : redo schema f.log s.db = some db') : used_up use db' := by
  obtain ⟨w, hw, hby, hspends⟩ := used_by huses
  obtain ⟨hroute, honly⟩ := use_written hf hret hw hspends
  have hkeeps : ∀ w' ∈ f.log, KeepsUsed use w' := by
    refine log_keeps_used (checks_renew_nothing hf hroute) ?_
    rintro enrolment_id step step' rfl hin
    have hsame := honly _ hin rfl
    cases hby
    cases hsame
    exact Int.le_refl step
  -- the statement, and what comes after it
  obtain ⟨ws, ws', hlog⟩ := List.append_of_mem hw
  rw [hlog] at hredo
  obtain ⟨db₁, _, _, hrest⟩ := redo_split hredo
  refine used_kept (used_at_once hby db₁) (fun w' hw' => hkeeps w' ?_) hrest
  rw [hlog]
  exact List.mem_append_right _ (List.mem_cons_of_mem _ hw')

/-- A commit that finds what it uses unused puts no counter back. -/
theorem used_stays (hstill : ∀ use, uses f use → Unused use s.db) (hnot : ¬ renews f use)
    (h : used_up use s.db) (hredo : redo schema f.log s.db = some db') : used_up use db' := by
  refine used_kept h (log_keeps_used hnot ?_) hredo
  rintro enrolment_id step step' rfl hin
  obtain ⟨m, hm, hid, hahead⟩ := hstill (.step enrolment_id step') hin
  obtain ⟨last, hlast, hle⟩ := h m hm hid
  exact Int.le_of_lt (Int.lt_of_le_of_lt hle (hahead last hlast))

/-- A request that has met the rows it commits on, and no others, has looked at them. -/
theorem unused_alone (hf : Genuine schema run_ext (Arrival.handler srv) past f)
    (hret : ∃ reply, f.rest = .ret reply) (hrows : ∀ e ∈ f.seen, e.rows = db) (huses : uses f use) :
    Unused use db := by
  obtain ⟨w, hw, hby, hspends⟩ := used_by huses
  obtain ⟨hroute, _⟩ := use_written hf hret hw hspends
  rcases code_traced hf hroute hret with ⟨code, w₀, after, before, htrace⟩ | ⟨_, hidle⟩
  · obtain rfl := htrace.only hw hspends
    -- a row that was read before the statement is on record
    have hread : ∀ {t : Table} {p : Row t → Bool} {r : Row t},
        ⟨.select t p, [r]⟩ ∈ before → r ∈ db t := by
      intro t p r hin
      obtain ⟨later, earlier, rfl⟩ := List.append_of_mem hin
      have hselects : ∀ x ∈ earlier, ∃ t' p', x.1 = .select t' p' := by
        intro x hx
        have hmem : x ∈ later ++ ⟨.select t p, [r]⟩ :: earlier :=
          List.mem_append_right _ (List.mem_cons_of_mem _ hx)
        exact select_of_looks (htrace.before x hmem)
      have hsplit := htrace.trace
      rw [← List.cons_append, ← List.append_assoc] at hsplit
      obtain ⟨e, he, hr⟩ := hf.handed_committed hsplit hselects (List.mem_singleton_self r)
      rwa [hrows e he] at hr
    have hfound := htrace.found
    cases hby with
    | step enrolment_id step =>
      cases hfound with
      | step read ahead => exact ⟨_, hread read, rfl, ahead⟩
    | recovery code_id now =>
      cases hfound with
      | recovery read unused => exact ⟨_, hread read, rfl, unused⟩
  · exact absurd hspends (by rw [hidle _ (mem_wrote hw)]; exact Bool.false_ne_true)

end commits

/-! ### Runs -/

section runs
variable {ext : Outside} {past : TrafficPast Token} {s s' : Traffic Token}

theorem unused_not_used_up {use : CodeUse} {db : Database} (h : Unused use db) :
    ¬ used_up use db := by
  intro hused
  cases use with
  | step enrolment_id step =>
    obtain ⟨m, hm, hid, hahead⟩ := h
    obtain ⟨last, hlast, hle⟩ := hused m hm hid
    have hlt := hahead last hlast
    omega
  | recovery code_id =>
    obtain ⟨c, hc, hid, hnone⟩ := h
    exact hused c hc hid hnone

/-- **Step.** A move whose commit is `StillUnused` puts no counter back. -/
theorem counters_kept (hr : Run (traffic srv) StillUnused (Traffic.start ext) past s)
    {move : Move (Arrival Token)} (hstill : StillUnused past s move)
    (hmove : traffic srv s move s') : CountersKept s move s' := by
  intro m hm hnot m' hm' hid last hlast
  have hused : used_up (.step m.id last) s.db := by
    intro m₀ hm₀ hid₀
    obtain rfl := (traffic_consistent hr).eq_of_pk hm₀ hm hid₀
    exact ⟨last, hlast, Int.le_refl last⟩
  rcases hmove.commits past with ⟨hdb, _⟩ | ⟨n, f, reply, rfl, hflies, _, hredo, _⟩
  · rw [hdb] at hm'
    exact hused m' hm' hid
  · have hold : ¬ renews f (.step m.id last) := hnot n f rfl hflies
    exact used_stays (hstill n f rfl hflies) hold hused hredo m' hm' hid

/-- **A code is used once.** In every run whose commits are all `StillUnused`, however its
    requests interleave; and no counter is put back. -/
theorem codes_used_once (hr : Run (traffic srv) StillUnused (Traffic.start ext) past s) :
    CodesOnce srv past ∧
      ∀ move s', StillUnused past s move → traffic srv s move s' → CountersKept s move s' := by
  have h0 : ∀ n, (Traffic.start ext : Traffic Token).running n = none := fun _ => rfl
  refine ⟨⟨fun f hf hroute => ?_, ?_⟩, fun move s' => counters_kept hr⟩
  · obtain ⟨hgenuine, hret⟩ := (run_genuine hr h0).2 f hf
    exact code_spent hgenuine hroute hret
  · refine run_once used_up hr h0 ?_ ?_ ?_
    · intro past s f db hcommits use huses
      exact used_after hcommits.genuine hcommits.returned huses hcommits.redone
    · intro past s f db hcommits use hnot hused
      obtain ⟨n, hstill, hflies⟩ := hcommits.allowed
      exact used_stays (hstill n f rfl hflies) hnot hused hcommits.redone
    · intro past s f db hcommits use huses
      obtain ⟨n, hstill, hflies⟩ := hcommits.allowed
      exact unused_not_used_up (hstill n f rfl hflies use huses)

/-- One after another, requests find their codes unused. -/
theorem unused_one_by_one {as : List (Arrival Token)} {w : Committed}
    (h : one_by_one srv ext as = some w) :
    ∃ past, Run (traffic srv) StillUnused (Traffic.start ext) past
      ⟨w.db, w.ext, fun _ => none⟩ := by
  refine run_one_by_one ?_ ?_ ?_ h
  · intro _ _ _ _ _ _ hmove
    cases hmove
  · intro _ _ _ _ _ hmove
    cases hmove
  · intro past s f reply hr hflies _ hret hrows n g hmove hg use huses
    obtain rfl := Move.commit.inj hmove
    obtain rfl : f = g := Option.some.inj (hflies.symm.trans hg)
    have hgenuine := (run_genuine hr fun _ => rfl).1 0 f hflies
    exact unused_alone hgenuine ⟨reply, hret⟩ hrows huses

end runs

/-! ### One code given twice at once, and once -/

namespace Sample

def factor_login : Line := ⟨6, 140 * second, ⟨none, .login "a@x.org" "correct horse"⟩⟩

/-- The enrolment with secret `"3"`, confirmed, and a login that has been challenged. -/
def challenged_login : List Line := factor_login :: confirmation :: enrolling

/-- The code of the step after the one that confirmed. -/
def verification (serial : Nat) : Line :=
  ⟨serial, 150 * second, ⟨none, .mfa_verify (challenge_claims 4096#128 (140 * second)) "310005"⟩⟩

/-- Two requests with this code have both done all they do when the first one commits. -/
def verified_twice : List (Turn (Arrival Payload)) :=
  List.replicate 6 (.move (.call 2)) ++ List.replicate 6 (.move (.call 1)) ++
    [.move (.begin 2 (verification 9).arrival), .move (.begin 1 (verification 8).arrival)] ++
      challenged_login.flatMap whole

def consumed_by (f : InFlight Payload) : List (Uuid × Int) :=
  f.log.filterMap (fun w => match w with
    | .update .user_mfa enrolment_id (.consume step) => some (enrolment_id, step)
    | _ => none)

theorem uses_of_consumed_by {f : InFlight Payload} {enrolment_id : Uuid} {step : Int}
    (h : (enrolment_id, step) ∈ consumed_by f) : uses f (.step enrolment_id step) := by
  obtain ⟨w, hw, hsome⟩ := List.mem_filterMap.mp h
  split at hsome
  · cases hsome
    exact hw
  · cases hsome

/-- Both of them have used the same step. -/
def consume_same (s : Traffic Payload) : Bool :=
  match s.running 1, s.running 2 with
  | some f, some g => (consumed_by f).any (fun step => decide (step ∈ consumed_by g))
  | _, _ => false

theorem uses_of_consume_same {s : Traffic Payload} (h : consume_same s = true) :
    ∃ f g use, s.running 1 = some f ∧ s.running 2 = some g ∧ uses f use ∧ uses g use := by
  unfold consume_same at h
  split at h
  · next f g hf hg =>
    obtain ⟨⟨enrolment_id, step⟩, hfirst, hsecond⟩ := List.any_eq_true.mp h
    exact ⟨f, g, .step enrolment_id step, hf, hg, uses_of_consumed_by hfirst,
      uses_of_consumed_by (of_decide_eq_true hsecond)⟩
  · cases h

end Sample

/-- Both of them commit, each with a session for the one code. -/
theorem code_used_twice :
    ¬ ∀ past s, Run (traffic Sample.secret_server) unrestricted
        (Traffic.start Sample.nothing_stored) past s → CodesOnce Sample.secret_server past := by
  intro hall
  have hscript : (Sample.play_script Sample.verified_twice).any (fun s => Sample.consume_same s &&
      (Sample.advance_move (.commit 1) s).any (fun s₁ =>
        (Sample.advance_move (.commit 2) s₁).isSome)) = true := by
    decide +kernel
  obtain ⟨s, hs, hboth⟩ := (Option.any_eq_true _ _).mp hscript
  obtain ⟨hsame, hcommits⟩ := Bool.and_eq_true_iff.mp hboth
  obtain ⟨s₁, hs₁, hcommits⟩ := (Option.any_eq_true _ _).mp hcommits
  obtain ⟨s₂, hs₂⟩ := Option.isSome_iff_exists.mp hcommits
  obtain ⟨f, g, use, hf, hg, hfirst, hsecond⟩ := Sample.uses_of_consume_same hsame
  obtain ⟨past, hr⟩ := run_turns hs
  obtain ⟨past', hr', hcommitted⟩ := run_two_commits hr (by decide) hf hg hs₁ hs₂
  exact (hall past' s₂ hr').once [] g [] f _ use hcommitted
    (fun _ h => absurd h List.not_mem_nil) hfirst hsecond

/-- The code has brought a second session when it is given again: that request, still in
    flight, is refused. -/
theorem used_code_refused :
    ∃ past s, Run (traffic Sample.secret_server) StillUnused
        (Traffic.start Sample.nothing_stored) past s ∧ (s.db .user_session).length = 2 ∧
      (∃ f e, s.running 1 = some f ∧ f.rest = .raise (.http e) ∧ e.status = 401) ∧
      CodesOnce Sample.secret_server past ∧
        ∀ move s', StillUnused past s move → traffic Sample.secret_server s move s' →
          CountersKept s move s' := by
  have hscript : (Sample.joined_by Sample.secret_server
      (Sample.verification 8 :: Sample.challenged_login) (Sample.verification 9) 2).any (fun s =>
        decide ((s.db .user_session).length = 2) && Sample.refuses_newcomer 401 s) = true := by
    decide +kernel
  obtain ⟨s, hs, hboth⟩ := (Option.any_eq_true _ _).mp hscript
  obtain ⟨htwo, hrefused⟩ := Bool.and_eq_true_iff.mp hboth
  obtain ⟨past, hr⟩ := Sample.run_joined_by StillUnused
    (fun w hw => unused_one_by_one hw) (fun _ _ _ _ _ _ hmove => by cases hmove)
    (fun _ _ _ _ _ hmove => by cases hmove) hs
  exact ⟨past, s, hr, of_decide_eq_true htwo, Sample.refused_of_refuses hrefused,
    codes_used_once hr⟩

end CounselReady
