import CounselReady.Specs.Enrolment
import CounselReady.Specs.Traffic
import CounselReady.Sample

/-! # The Secret of an Active Enrolment

    Setting up and confirming both read the enrolment, look whether it is active,
    and write to different columns of it. Nothing holds the row in between, so
    that a setup may replace the secret of an enrolment that has become active,
    and a confirmation may activate a secret it has never seen.

    * `Undisturbed`: what a commit must find for neither to happen.
    * `active_secret_proved`: while commits find that, a secret that is active
      is one its owner has shown a code of.
-/

namespace CounselReady

open Relational Framework Handler Prog

variable {Token : Type} {srv : Server Token}

/-! ### A code, in a trace -/

-- a code is looked for by the rules below, never by trying the steps
attribute [local irreducible] matching_counter

section codes
variable {β : Type} {Q : Trace → β → Prop} {l : Trace}

theorem ends_decrypt_secret_bind {encrypted : String} {f : String → Handler β}
    (hf : ∀ key secret, srv.mfa_encryption_key = some key →
      srv.fernet_decrypt key encrypted = some secret → Ends Q l (f secret)) :
    Ends Q l (decrypt_secret srv encrypted >>= f) := by
  refine ends_bind (ends_silent (s := ⟨fun _ => [], Committed.empty.ext, []⟩)
    confined_decrypt_secret (wps_decrypt_secret (fun _ _ h => by cases h) ?_))
  intro key secret hkey hsecret b hb
  obtain rfl := Except.ok.inj hb
  exact hf key secret hkey hsecret

theorem ends_matching_counter_bind {secret code : String} {time : Nat}
    {f : Option Int → Handler β} (hnone : Ends Q l (f none))
    (hsome : ∀ step, srv.totp_at secret step = without ' ' (strip code) →
      counter_for time - 1 ≤ step → step ≤ counter_for time + 1 → Ends Q l (f (some step))) :
    Ends Q l (matching_counter srv secret code time >>= f) := by
  have hcounter : wps (matching_counter srv secret code time)
      (fun r _ => ∀ b, r = .ok b → Ends Q l (f b)) ⟨fun _ => [], Committed.empty.ext, []⟩ := by
    refine wps_matching_counter (fun e b hb => ?_) (fun _ b hb => ?_)
      fun step _ hcode hlow hhigh b hb => ?_
    · cases hb
    · obtain rfl := Except.ok.inj hb
      exact hnone
    · obtain rfl := Except.ok.inj hb
      exact hsome step hcode hlow hhigh
  exact ends_bind (ends_silent confined_matching_counter hcounter)

end codes

/-! ### What the two routes have read and written when they return -/

theorem setup_of_sets_up {route : Route Token} (h : route.sets_up = true) : route = .mfa_setup := by
  cases route <;> first | rfl | cases h

theorem confirm_of_confirms {route : Route Token} (h : route.confirms = true) :
    ∃ code, route = .mfa_confirm code := by
  cases route <;> first | exact ⟨_, rfl⟩ | cases h

def of_account (user_id : Uuid) : UserMfa → Bool := fun m => m.user_id == user_id

/-- A setup reads the enrolment once, and finds none that is active. -/
structure SetUpTrace (rows : List UserMfa) (tail gate l : Trace) : Prop where
  trace : ∃ user_id, l = tail ++ ⟨.select .user_mfa (of_account user_id), rows⟩ :: gate
  gate : ∀ x ∈ gate, ∃ t p, x.1 = .select t p ∧ t ≠ .user_mfa
  inactive : ∀ m ∈ rows, m.is_active = false
  tail : ∀ x ∈ tail, restarts rows.head? x.1

/-- A confirmation reads the enrolment of the account, and writes to it. -/
structure ConfirmTrace (srv : Server Token) (a : Arrival Token) (code : String) (r : UserMfa)
    (step : Int) (gate : Trace) (l : Trace) : Prop where
  trace : ∃ claims, Names srv a claims ∧
    l = ⟨.write (.update .user_mfa r.id (.confirm a.env.now step)), .ok ()⟩ ::
      ⟨.select .user_mfa (of_account claims.user_id), [r]⟩ :: gate
  gate : ∀ x ∈ gate, ∃ t p, x.1 = .select t p ∧ t ≠ .user_mfa
  right : CodeMatches srv a.env r code step

theorem Gated.elsewhere {a : Arrival Token} {claims : AccessTokenClaims} {us : UserSession}
    {account : UserAccount} {l : Trace} (h : Gated srv a claims us account l) :
    ∀ x ∈ l, ∃ t p, x.1 = .select t p ∧ t ≠ .user_mfa := by
  intro x hx
  obtain ⟨t, p, hop, ht⟩ := h.reads x hx
  refine ⟨t, p, hop, ?_⟩
  rcases ht with rfl | rfl
  · decide
  · decide

theorem setup_trace {a : Arrival Token} (hroute : a.req.route = .mfa_setup) :
    Ends (fun l _ => ∃ rows tail gate, SetUpTrace rows tail gate l) [] (a.handler srv) := by
  obtain ⟨env, ⟨credentials, route⟩⟩ := a
  obtain rfl : route = .mfa_setup := hroute
  refine ends_current_user_bind fun claims us account gate hgated => ?_
  have hgate := hgated.elsewhere
  refine ends_bind ((outline_rethrow _ _).mpr ?_)
  -- what is left after the read, whatever it has found
  have hrest : ∀ rows : List UserMfa, (∀ m ∈ rows, m.is_active = false) →
      Ends (fun l _ => ∃ rows tail gate, SetUpTrace rows tail gate l)
        (⟨.select .user_mfa (of_account account.id), rows⟩ :: gate) (do
          let enrolment ← begin_enrolment srv env account.email
          store_secret env account rows.head? enrolment.encrypted_secret
          delete_recovery_codes account.id
          insert_all .recovery_code (recovery_rows env account.id enrolment.recovery_digests)
          pure (⟨enrolment.provisioning_uri, enrolment.recovery_codes⟩ : PendingEnrolment)) := by
    intro rows hinactive
    refine ends_mono (ends_confined confined_restarts) ?_
    rintro l _ ⟨tail, rfl, htail⟩
    exact ⟨rows, tail, gate, ⟨account.id, rfl⟩, hgate, hinactive, htail⟩
  refine ends_select_one_bind ?_ fun m _ _ _ => ?_
  · refine ends_require_bind fun _ => ?_
    exact ends_mono (hrest [] fun _ hm => by cases hm) fun _ _ htrace => htrace
  · refine ends_require_bind fun hinactive => ?_
    refine ends_mono (hrest [m] fun m' hm' => ?_) fun _ _ htrace => htrace
    rw [List.mem_singleton.mp hm']
    simpa using hinactive

theorem confirm_trace {a : Arrival Token} {code : String} (hroute : a.req.route = .mfa_confirm code) :
    Ends (fun l _ => ∃ r step gate, ConfirmTrace srv a code r step gate l) [] (a.handler srv) := by
  obtain ⟨env, ⟨credentials, route⟩⟩ := a
  obtain rfl : route = .mfa_confirm code := hroute
  refine ends_current_user_bind fun claims us account gate hgated => ?_
  refine ends_require_bind fun _ => ?_
  refine ends_bind ((outline_rethrow _ _).mpr ?_)
  refine ends_select_one_bind ?_ fun m _ _ _ => ?_
  · exact ends_some_or_bind fun _ h => by cases h
  refine ends_some_or_bind fun record hrecord => ?_
  cases hrecord
  refine ends_require_bind fun _ => ?_
  refine ends_decrypt_secret_bind fun key secret hkey hsecret => ?_
  refine ends_matching_counter_bind ?_ fun step hcode hlow hhigh => ?_
  · exact ends_some_or_bind fun _ h => by cases h
  · refine ends_some_or_bind fun step' hstep => ?_
    cases hstep
    have hright : CodeMatches srv env m code step := ⟨key, secret, hkey, hsecret, hcode, hlow, hhigh⟩
    refine ends_execute ⟨m, step, gate, ⟨claims, hgated.names, ?_⟩, hgated.elsewhere, hright⟩
    rw [← hgated.account]
    rfl

/-! ### The condition -/

/-- The rows of `user_mfa` that the transaction has been handed. -/
def enrolments_read (f : InFlight Token) : List UserMfa :=
  f.seen.flatMap (fun e => e.handed .user_mfa)

/-- A commit finds the row it has decided on as it was when it decided: a setup, no more
    confirmed than it was; a confirmation, with the owner and the secret that it had, unless
    it is active by then. -/
def Undisturbed (_ : TrafficPast Token) (s : Traffic Token) (move : Move (Arrival Token)) : Prop :=
  ∀ n f, move = .commit n → s.running n = some f →
    ∀ r ∈ enrolments_read f, ∀ m ∈ s.db .user_mfa, UserMfa.id m = r.id →
      (f.job.req.route.sets_up = true → m.confirmed_at = r.confirmed_at) ∧
      (f.job.req.route.confirms = true → m.is_active = true ∨
        m.user_id = r.user_id ∧ m.encrypted_secret = r.encrypted_secret)

/-- The transaction is a confirmation by the owner of the enrolment: it has read its secret,
    and the code it was given is a code of that secret. -/
structure ProvedBy (srv : Server Token) (f : InFlight Token) (m : UserMfa) : Prop where
  owner : ∃ claims, Names srv f.job claims ∧ claims.user_id = m.user_id
  read : ∃ r ∈ enrolments_read f, r.id = m.id ∧ r.encrypted_secret = m.encrypted_secret
  right : ∃ code step, f.job.req.route = .mfa_confirm code ∧
    CodeMatches srv f.job.env m code step ∧
    .update .user_mfa m.id (.confirm f.job.env.now step) ∈ f.log

/-- The same enrolment, with the same secret. -/
structure SameSecret (m m' : UserMfa) : Prop where
  id : m'.id = m.id
  user_id : m'.user_id = m.user_id
  encrypted_secret : m'.encrypted_secret = m.encrypted_secret

theorem SameSecret.refl (m : UserMfa) : SameSecret m m := ⟨rfl, rfl, rfl⟩

theorem SameSecret.trans {m m' m'' : UserMfa} (h : SameSecret m m') (h' : SameSecret m' m'') :
    SameSecret m m'' :=
  ⟨h'.id.trans h.id, h'.user_id.trans h.user_id, h'.encrypted_secret.trans h.encrypted_secret⟩

theorem ProvedBy.same {f : InFlight Token} {m m' : UserMfa} (h : ProvedBy srv f m)
    (hsame : SameSecret m m') : ProvedBy srv f m' where
  owner := by
    rw [hsame.user_id]
    exact h.owner
  read := by
    rw [hsame.id, hsame.encrypted_secret]
    exact h.read
  right := by
    unfold CodeMatches
    rw [hsame.id, hsame.encrypted_secret]
    exact h.right

/-- What a commit does to the enrolments that are active, before it or after it. -/
structure ActiveKept (srv : Server Token) (g : InFlight Token) (db db' : Database) : Prop where
  active : ∀ m' ∈ db' .user_mfa, UserMfa.is_active m' = true →
    (∃ m ∈ db .user_mfa, SameSecret m m' ∧ UserMfa.is_active m = true) ∨ ProvedBy srv g m'
  held : ∀ m ∈ db .user_mfa, UserMfa.is_active m = true → ∀ m' ∈ db' .user_mfa,
    UserMfa.id m' = m.id → SameSecret m m' ∧ m'.is_active = true

/-! ### The other routes -/

/-- A statement that neither sets up nor confirms leaves the secret and the confirmation of
    every enrolment it leaves. -/
theorem unchanged_from {env : Env} {route : Route Token} {w : Write Row Patch Uuid} {db : Database}
    {m' : UserMfa} (hp : permits srv env route (.write w)) (hsets : route.sets_up = false)
    (hconfirms : route.confirms = false)
    (hm' : m' ∈ schema.effect (schema.resolve db w) db .user_mfa) :
    ∃ m ∈ db .user_mfa, SameSecret m m' ∧ m'.confirmed_at = UserMfa.confirmed_at m := by
  rcases Schema.mem_effect_resolve (rigid (by decide)) hm' with hold | rfl |
    ⟨id, p, m, hm, rfl, hid, rfl⟩
  · exact ⟨m', hold, .refl m', rfl⟩
  · have hset : route.sets_up = true := hp.2.1
    rw [hsets] at hset
    cases hset
  · cases p with
    | restart secret clears =>
      have hset : route.sets_up = true := hp
      rw [hsets] at hset
      cases hset
    | confirm now step =>
      have hconfirm : route.confirms = true := hp
      rw [hconfirms] at hconfirm
      cases hconfirm
    | consume step => exact ⟨m, hm, ⟨rfl, rfl, rfl⟩, rfl⟩

section commits
variable {past : TrafficPast Token} {s : Traffic Token} {g : InFlight Token} {n : Nat}
  {reply : Reply Token} {db' : Database}

/-- Every statement of a transaction is one its route permits. -/
theorem log_permitted (hg : Genuine schema run_ext (Arrival.handler srv) past g)
    {w : Write Row Patch Uuid} (hw : w ∈ g.log) :
    permits srv g.job.env g.job.req.route (.write w) :=
  (hg.traced.every (respond_confined srv g.job.env g.job.req)).1 _ (mem_wrote hw)

theorem kept_by_others (hg : Genuine schema run_ext (Arrival.handler srv) past g)
    (hc : schema.Consistent s.db) (hsets : g.job.req.route.sets_up = false)
    (hconfirms : g.job.req.route.confirms = false) (hredo : redo schema g.log s.db = some db') :
    ActiveKept srv g s.db db' := by
  let J : Database → Prop := fun db => ∀ m' ∈ db .user_mfa,
    ∃ m ∈ s.db .user_mfa, SameSecret m m' ∧ UserMfa.confirmed_at m' = UserMfa.confirmed_at m
  have hJ : J db' := by
    refine redo_invariant hredo (fun m hm => ⟨m, hm, .refl m, rfl⟩) ?_
    intro w hw db _ hdb m' hm'
    obtain ⟨m₁, hm₁, hsame₁, hconf₁⟩ := unchanged_from (log_permitted hg hw) hsets hconfirms hm'
    obtain ⟨m, hm, hsame, hconf⟩ := hdb m₁ hm₁
    exact ⟨m, hm, hsame.trans hsame₁, hconf₁.trans hconf⟩
  have hactive : ∀ {m m' : UserMfa}, m'.confirmed_at = m.confirmed_at →
      m'.is_active = m.is_active := by
    intro m m' h
    unfold UserMfa.is_active
    rw [h]
  constructor
  · intro m' hm' hact
    obtain ⟨m, hm, hsame, hconf⟩ := hJ m' hm'
    exact .inl ⟨m, hm, hsame, (hactive hconf).symm.trans hact⟩
  · intro m hm hact m' hm' hid
    obtain ⟨m₀, hm₀, hsame, hconf⟩ := hJ m' hm'
    obtain rfl : m₀ = m := hc.eq_of_pk hm₀ hm (hsame.id.symm.trans hid)
    exact ⟨hsame, (hactive hconf).trans hact⟩

/-! ### A confirmation -/

/-- What a confirmation has done when it returns. -/
theorem confirm_done (hg : Genuine schema run_ext (Arrival.handler srv) past g) {code : String}
    (hroute : g.job.req.route = .mfa_confirm code) (hret : g.rest = .ret reply) :
    ∃ r step claims, g.log = [.update .user_mfa r.id (.confirm g.job.env.now step)] ∧
      r ∈ enrolments_read g ∧ Names srv g.job claims ∧ claims.user_id = r.user_id ∧
      CodeMatches srv g.job.env r code step := by
  have hout := hg.traced.outline (confirm_trace hroute) hg.keyed
  rw [hret] at hout
  obtain ⟨r, step, gate, ⟨claims, hnames, htrace⟩, hgate, hright⟩ := hout
  obtain ⟨e, he, _, hhanded, hfilter⟩ := hg.first_select (List.singleton_append ▸ htrace) hgate
  have hr : r ∈ (e.rows .user_mfa).filter (of_account claims.user_id) := by
    rw [← hfilter]
    exact List.mem_singleton_self r
  refine ⟨r, step, claims, ?_, ?_, hnames, ?_, hright⟩
  · have hread : wrote (⟨.select .user_mfa (of_account claims.user_id), [r]⟩ :: gate) = [] := by
      refine wrote_selects fun x hx => ?_
      rcases List.mem_cons.mp hx with rfl | hx
      · exact ⟨_, _, rfl⟩
      · obtain ⟨t, p, hop, _⟩ := hgate x hx
        exact ⟨t, p, hop⟩
    show wrote (g.seen.map Event.exchange) = _
    rw [htrace]
    show wrote _ ++ [_] = _
    rw [hread]
    rfl
  · refine List.mem_flatMap.mpr ⟨e, he, ?_⟩
    rw [hhanded]
    exact List.mem_singleton_self r
  · exact (beq_iff_eq.mp (List.mem_filter.mp hr).2).symm

theorem kept_by_confirm (hg : Genuine schema run_ext (Arrival.handler srv) past g)
    (hc : schema.Consistent s.db) {code : String} (hroute : g.job.req.route = .mfa_confirm code)
    (hret : g.rest = .ret reply) (hflies : s.running n = some g)
    (hund : Undisturbed past s (.commit n)) (hredo : redo schema g.log s.db = some db') :
    ActiveKept srv g s.db db' := by
  obtain ⟨r, step, claims, hlog, hread, hnames, howner, hright⟩ := confirm_done hg hroute hret
  rw [hlog] at hredo
  obtain ⟨_, hdb⟩ := redo_cons hredo
  obtain rfl := Option.some.inj hdb
  -- the row after the commit, and the one it was before
  have hfrom : ∀ m' ∈ schema.effect (.update .user_mfa r.id (.confirm g.job.env.now step)) s.db
      .user_mfa, ∃ m ∈ s.db .user_mfa, SameSecret m m' ∧
        (m' = m ∨ UserMfa.id m = r.id ∧ m'.is_active = true) := by
    intro m' hm'
    obtain ⟨m, hm, rfl⟩ := Schema.mem_effect_update.mp hm'
    by_cases hid : UserMfa.id m = r.id
    · rw [Schema.patched_of_eq hid]
      exact ⟨m, hm, ⟨rfl, rfl, rfl⟩, .inr ⟨hid, rfl⟩⟩
    · rw [Schema.patched_of_ne hid]
      exact ⟨m, hm, .refl m, .inl rfl⟩
  constructor
  · intro m' hm' hact
    obtain ⟨m, hm, hsame, rfl | ⟨hid, _⟩⟩ := hfrom m' hm'
    · exact .inl ⟨m', hm, .refl m', hact⟩
    · have hconfirms : g.job.req.route.confirms = true := by
        rw [hroute]
        rfl
      rcases (hund n g rfl hflies r hread m hm hid).2 hconfirms with hbefore | ⟨huser, hsecret⟩
      · exact .inl ⟨m, hm, hsame, hbefore⟩
      · have hrow : SameSecret r m := ⟨hid, huser, hsecret⟩
        have hproved : ProvedBy srv g r := by
          refine ⟨⟨claims, hnames, howner⟩, ⟨r, hread, rfl, rfl⟩, code, step, hroute, hright, ?_⟩
          rw [hlog]
          exact List.mem_singleton_self _
        exact .inr (hproved.same (hrow.trans hsame))
  · intro m hm hact m' hm' hid
    obtain ⟨m₀, hm₀, hsame, hwas⟩ := hfrom m' hm'
    obtain rfl : m₀ = m := hc.eq_of_pk hm₀ hm (hsame.id.symm.trans hid)
    rcases hwas with rfl | ⟨_, hactive⟩
    · exact ⟨hsame, hact⟩
    · exact ⟨hsame, hactive⟩

/-! ### A setup -/

/-- What a setup may write to `user_mfa`. -/
theorem setup_writes {env : Env} {existing : Option UserMfa} {w : Write Row Patch Uuid}
    (hp : permits srv env .mfa_setup (.write w)) (hw : restarts existing (.write w))
    (db : Database) :
    schema.effect (schema.resolve db w) db .user_mfa = db .user_mfa ∨
      (∃ m, w = .insert .user_mfa m ∧ UserMfa.confirmed_at m = none) ∨
        ∃ r secret clears, existing = some r ∧ w = .update .user_mfa r.id (.restart secret clears) := by
  cases w with
  | insert t row =>
    by_cases ht : t = .user_mfa
    · subst ht
      exact .inr (.inl ⟨row, rfl, hw⟩)
    · exact .inl (Schema.effect_insert_ne _ _ ht)
  | update t id patch =>
    by_cases ht : t = .user_mfa
    · subst ht
      cases patch with
      | restart secret clears =>
        obtain ⟨r, hr, rfl⟩ := hw
        exact .inr (.inr ⟨r, secret, clears, hr, rfl⟩)
      | confirm now step => exact hw.elim
      | consume step => exact hw.elim
    · exact .inl (Schema.effect_update_ne _ _ _ ht)
  | delete t id =>
    have ht : t = .recovery_code := by
      cases t <;> first | rfl | cases hp
    subst ht
    refine .inl ?_
    rw [Schema.resolve, deleted_alone (enrolment_leaf (.inr rfl)) (rigid (by decide))]
    exact List.filter_eq_self.mpr fun r _ => by simp

/-- What a setup has written when it returns: to no enrolment but one it has read, not
    confirmed. -/
theorem setup_done (hg : Genuine schema run_ext (Arrival.handler srv) past g)
    (hroute : g.job.req.route = .mfa_setup) (hret : g.rest = .ret reply) :
    ∃ existing : Option UserMfa, (∀ r, existing = some r → r ∈ enrolments_read g ∧ r.is_active = false) ∧
      ∀ w ∈ g.log, restarts existing (.write w) := by
  have hout := hg.traced.outline (setup_trace hroute) hg.keyed
  rw [hret] at hout
  obtain ⟨rows, tail, gate, ⟨user_id, htrace⟩, hgate, hinactive, htail⟩ := hout
  obtain ⟨e, he, _, hhanded, _⟩ := hg.first_select htrace hgate
  refine ⟨rows.head?, fun r hr => ?_, fun w hw => ?_⟩
  · have hmem : r ∈ rows := List.mem_of_mem_head? hr
    refine ⟨List.mem_flatMap.mpr ⟨e, he, ?_⟩, hinactive r hmem⟩
    rw [hhanded]
    exact hmem
  · have hcall := mem_wrote hw
    rw [htrace] at hcall
    rcases List.mem_append.mp hcall with hlater | hread
    · exact htail _ hlater
    · rcases List.mem_cons.mp hread with heq | hbefore
      · cases heq
      · obtain ⟨t, p, hop, _⟩ := hgate _ hbefore
        cases hop

/-- So far a setup has taken no row away, and has left those that are active alone. -/
structure ActiveUntouched (db₀ db : Database) : Prop where
  stays : ∀ m ∈ db₀ .user_mfa, ∃ m' ∈ db .user_mfa, UserMfa.id m' = UserMfa.id m
  old : ∀ m' ∈ db .user_mfa, UserMfa.is_active m' = true → m' ∈ db₀ .user_mfa
  same : ∀ m ∈ db₀ .user_mfa, UserMfa.is_active m = true → ∀ m' ∈ db .user_mfa,
    UserMfa.id m' = UserMfa.id m → m' = m

theorem ActiveUntouched.refl {db : Database} (hc : schema.Consistent db) : ActiveUntouched db db where
  stays := fun m hm => ⟨m, hm, rfl⟩
  old := fun _ hm' _ => hm'
  same := fun _ hm _ _ hm' hid => hc.eq_of_pk hm' hm hid

theorem ActiveUntouched.of_eq {db₀ db db' : Database} (h : ActiveUntouched db₀ db)
    (hsame : db' .user_mfa = db .user_mfa) : ActiveUntouched db₀ db' where
  stays := by
    rw [hsame]
    exact h.stays
  old := by
    rw [hsame]
    exact h.old
  same := by
    rw [hsame]
    exact h.same

theorem ActiveUntouched.insert {db₀ db : Database} {m₀ : UserMfa} (h : ActiveUntouched db₀ db)
    (hchk : schema.check db (.insert .user_mfa m₀) = none) (hnone : m₀.confirmed_at = none) :
    ActiveUntouched db₀ (schema.effect (.insert .user_mfa m₀) db) := by
  obtain ⟨_, hnew, _⟩ := Schema.check_insert hchk
  constructor
  · intro m hm
    obtain ⟨m', hm', hid⟩ := h.stays m hm
    exact ⟨m', Schema.mem_effect_insert.mpr (.inl hm'), hid⟩
  · intro m' hm' hact
    rcases Schema.mem_effect_insert.mp hm' with hold | rfl
    · exact h.old m' hold hact
    · rw [UserMfa.is_active, hnone] at hact
      cases hact
  · intro m hm hact m' hm' hid
    rcases Schema.mem_effect_insert.mp hm' with hold | rfl
    · exact h.same m hm hact m' hold hid
    · -- the id is taken
      obtain ⟨m₁, hm₁, hid₁⟩ := h.stays m hm
      exact absurd (hid₁.trans hid.symm) (hnew m₁ hm₁).1

theorem ActiveUntouched.restart {db₀ db : Database} {id : Uuid} {secret : String} {clears : Bool}
    (h : ActiveUntouched db₀ db)
    (hpending : ∀ m ∈ db₀ .user_mfa, UserMfa.id m = id → m.is_active = false) :
    ActiveUntouched db₀ (schema.effect (.update .user_mfa id (.restart secret clears)) db) := by
  -- a row that is active, before or after, is not the one that is written to
  have hother : ∀ m ∈ db₀ .user_mfa, UserMfa.is_active m = true → UserMfa.id m ≠ id := by
    intro m hm hact hid
    rw [hpending m hm hid] at hact
    cases hact
  have hkeeps : ∀ m : UserMfa, UserMfa.is_active
      (schema.patched .user_mfa id (.restart secret clears) m) = m.is_active := by
    intro m
    unfold Schema.patched
    split
    · rfl
    · rfl
  constructor
  · intro m hm
    obtain ⟨m', hm', hid⟩ := h.stays m hm
    refine ⟨schema.patched .user_mfa id (.restart secret clears) m',
      Schema.mem_effect_update.mpr ⟨m', hm', rfl⟩, ?_⟩
    exact (schema.pk_patched .user_mfa id (.restart secret clears) m').trans hid
  · intro m' hm' hact
    obtain ⟨m, hm, rfl⟩ := Schema.mem_effect_update.mp hm'
    rw [hkeeps] at hact
    have hold := h.old m hm hact
    rw [Schema.patched_of_ne (hother m hold hact)]
    exact hold
  · intro m hm hact m' hm' hid
    obtain ⟨m₁, hm₁, rfl⟩ := Schema.mem_effect_update.mp hm'
    have hid₁ : UserMfa.id m₁ = m.id :=
      (schema.pk_patched .user_mfa id (.restart secret clears) m₁).symm.trans hid
    obtain rfl := h.same m hm hact m₁ hm₁ hid₁
    exact Schema.patched_of_ne (hother m₁ hm hact)

theorem kept_by_setup (hg : Genuine schema run_ext (Arrival.handler srv) past g)
    (hc : schema.Consistent s.db) (hroute : g.job.req.route = .mfa_setup)
    (hret : g.rest = .ret reply) (hflies : s.running n = some g) (hund : Undisturbed past s (.commit n))
    (hredo : redo schema g.log s.db = some db') :
    ActiveKept srv g s.db db' := by
  obtain ⟨existing, hexisting, hlog⟩ := setup_done hg hroute hret
  have hsets : g.job.req.route.sets_up = true := by
    rw [hroute]
    rfl
  -- the row that is written to is not confirmed when it is written to
  have hpending : ∀ r, existing = some r → ∀ m ∈ s.db .user_mfa, UserMfa.id m = r.id →
      m.is_active = false := by
    intro r hr m hm hid
    obtain ⟨hread, hinactive⟩ := hexisting r hr
    have hconf := (hund n g rfl hflies r hread m hm hid).1 hsets
    unfold UserMfa.is_active at hinactive ⊢
    rw [hconf]
    exact hinactive
  have hleft : ActiveUntouched s.db db' := by
    refine redo_invariant hredo (ActiveUntouched.refl hc) fun w hw db hchk hdb => ?_
    have hpermitted := log_permitted hg hw
    rw [hroute] at hpermitted
    rcases setup_writes hpermitted (hlog w hw) db with hsame | ⟨m₀, rfl, hnone⟩ |
      ⟨r, secret, clears, hr, rfl⟩
    · exact hdb.of_eq hsame
    · exact hdb.insert hchk hnone
    · exact hdb.restart (hpending r hr)
  constructor
  · intro m' hm' hact
    exact .inl ⟨m', hleft.old m' hm' hact, .refl m', hact⟩
  · intro m hm hact m' hm' hid
    obtain rfl := hleft.same m hm hact m' hm' hid
    exact ⟨.refl m', hact⟩

end commits

/-! ### Runs -/

section runs
variable {ext : Outside} {past : TrafficPast Token} {s s' : Traffic Token}
  {may : TrafficPast Token → Traffic Token → Move (Arrival Token) → Prop}

theorem traffic_consistent (hr : Run (traffic srv) may (Traffic.start ext) past s) :
    schema.Consistent s.db := run_consistent schema_regular hr Schema.consistent_empty

/-- **Step.** A move commits nothing, or a transaction that keeps what is active. -/
theorem active_kept (hr : Run (traffic srv) may (Traffic.start ext) past s)
    {move : Move (Arrival Token)} (hund : Undisturbed past s move)
    (hmove : traffic srv s move s') :
    (s'.db = s.db ∧ committed ((move, s) :: past) = committed past) ∨
      ∃ g, committed ((move, s) :: past) = g :: committed past ∧ ActiveKept srv g s.db s'.db := by
  rcases hmove.commits past with hsame | ⟨n, g, reply, rfl, hflies, hret, hredo, hnew⟩
  · exact .inl hsame
  · refine .inr ⟨g, hnew, ?_⟩
    have hc := traffic_consistent hr
    have hg := (run_genuine hr fun _ => rfl).1 n g hflies
    by_cases hsets : g.job.req.route.sets_up = true
    · exact kept_by_setup hg hc (setup_of_sets_up hsets) hret hflies hund hredo
    · by_cases hconfirms : g.job.req.route.confirms = true
      · obtain ⟨code, hroute⟩ := confirm_of_confirms hconfirms
        exact kept_by_confirm hg hc hroute hret hflies hund hredo
      · exact kept_by_others hg hc (Bool.eq_false_of_not_eq_true hsets)
          (Bool.eq_false_of_not_eq_true hconfirms) hredo

/-- The secret that is stored has been proved by a committed confirmation of its owner. -/
def SecretsProved (srv : Server Token) (past : TrafficPast Token) (s : Traffic Token) : Prop :=
  ∀ m ∈ s.db .user_mfa, UserMfa.is_active m = true → ∃ f ∈ committed past, ProvedBy srv f m

/-- No enrolment that is active gets another secret, or is inactive again. -/
def SecretsHeld (s s' : Traffic Token) : Prop :=
  ∀ m ∈ s.db .user_mfa, UserMfa.is_active m = true → ∀ m' ∈ s'.db .user_mfa,
    UserMfa.id m' = m.id → m'.encrypted_secret = m.encrypted_secret ∧ m'.is_active = true

/-- **An active enrolment holds a secret its owner has proved.** In every run whose commits
    are all `Undisturbed`, however its requests interleave: every secret that is active has
    been proved, and the next move leaves it as it is. -/
theorem active_secret_proved
    (hr : Run (traffic srv) Undisturbed (Traffic.start ext) past s) :
    SecretsProved srv past s ∧
      ∀ move s', Undisturbed past s move → traffic srv s move s' → SecretsHeld s s' := by
  constructor
  · refine hr.invariant (I := SecretsProved srv) ?_ ?_
    · intro m hm
      cases hm
    · intro past s move s' hrun hproved hund hmove m' hm' hact
      rcases active_kept hrun hund hmove with ⟨hdb, hsame⟩ | ⟨g, hnew, hkept⟩
      · rw [hdb] at hm'
        rw [hsame]
        exact hproved m' hm' hact
      · rw [hnew]
        -- active before with the same secret, or made so by the commit that has just come
        rcases hkept.active m' hm' hact with ⟨m, hm, hsecret, hbefore⟩ | hby
        · obtain ⟨f, hf, hby⟩ := hproved m hm hbefore
          exact ⟨f, List.mem_cons_of_mem g hf, hby.same hsecret⟩
        · exact ⟨g, List.mem_cons_self, hby⟩
  · intro move s' hund hmove m hm hact m' hm' hid
    rcases active_kept hr hund hmove with ⟨hdb, _⟩ | ⟨g, _, hkept⟩
    · rw [hdb] at hm'
      obtain rfl : m' = m := (traffic_consistent hr).eq_of_pk hm' hm hid
      exact ⟨rfl, hact⟩
    · obtain ⟨hsecret, hactive⟩ := hkept.held m hm hact m' hm' hid
      exact ⟨hsecret.encrypted_secret, hactive⟩

end runs

/-! ### Served one after another -/

section alone
variable {ext : Outside} {past : TrafficPast Token} {s : Traffic Token} {g : InFlight Token} {n : Nat}
  {reply : Reply Token}

/-- An enrolment that is read once, before anything is written, is read as it is committed. -/
theorem read_committed (hg : Genuine schema run_ext (Arrival.handler srv) past g)
    {p : UserMfa → Bool} {rows : List UserMfa} {later before : Trace}
    (htrace : g.seen.map Event.exchange = later ++ ⟨.select .user_mfa p, rows⟩ :: before)
    (hbefore : ∀ x ∈ before, ∃ t p, x.1 = .select t p ∧ t ≠ .user_mfa)
    (hlater : ∀ x ∈ later, ∀ p, x.1 ≠ .select .user_mfa p) {r : UserMfa}
    (hr : r ∈ enrolments_read g) : ∃ e ∈ g.seen, r ∈ e.rows .user_mfa := by
  obtain ⟨e, he, hin⟩ := List.mem_flatMap.mp hr
  obtain ⟨p', rows', hexchange, hmem⟩ := Event.select_of_handed hin
  have hcall : (⟨.select .user_mfa p', rows'⟩ : Exchange (db_sig Row Patch Uuid Answer)) ∈
      g.seen.map Event.exchange := List.mem_map.mpr ⟨e, he, hexchange⟩
  rw [htrace] at hcall
  rcases List.mem_append.mp hcall with hafter | hcall
  · exact absurd rfl (hlater _ hafter p')
  · rcases List.mem_cons.mp hcall with heq | hearly
    · obtain ⟨e', he', _, _, hfilter⟩ := hg.first_select htrace hbefore
      cases heq
      rw [hfilter] at hmem
      exact ⟨e', he', (List.mem_filter.mp hmem).1⟩
    · obtain ⟨t, p'', hop, hne⟩ := hbefore _ hearly
      cases hop
      exact absurd rfl hne

/-- A transaction that has met the rows it commits on, and no others, is undisturbed. -/
theorem undisturbed_alone {may : TrafficPast Token → Traffic Token → Move (Arrival Token) → Prop}
    (hr : Run (traffic srv) may (Traffic.start ext) past s) (hflies : s.running n = some g)
    (hret : g.rest = .ret reply) (hrows : ∀ e ∈ g.seen, e.rows = s.db) :
    Undisturbed past s (.commit n) := by
  intro n' f hmove hf r hread m hm hid
  obtain rfl := Move.commit.inj hmove
  obtain rfl : g = f := Option.some.inj (hflies.symm.trans hf)
  have hg := (run_genuine hr fun _ => rfl).1 n g hflies
  -- the row that was read is the one that is there
  have hsame : (∃ e ∈ g.seen, r ∈ e.rows .user_mfa) → m = r := by
    rintro ⟨e, he, hin⟩
    rw [hrows e he] at hin
    exact (traffic_consistent hr).eq_of_pk hm hin hid
  constructor
  · intro hsets
    have hout := hg.traced.outline (setup_trace (setup_of_sets_up hsets)) hg.keyed
    rw [hret] at hout
    obtain ⟨rows, tail, gate, ⟨user_id, htrace⟩, hgate, _, htail⟩ := hout
    rw [hsame (read_committed hg htrace hgate (fun x hx p hop => ?_) hread)]
    have hrestarts := htail x hx
    rw [hop] at hrestarts
    exact hrestarts
  · intro hconfirms
    obtain ⟨code, hroute⟩ := confirm_of_confirms hconfirms
    have hout := hg.traced.outline (confirm_trace hroute) hg.keyed
    rw [hret] at hout
    obtain ⟨r', step, gate, ⟨claims, _, htrace⟩, hgate, _⟩ := hout
    rw [hsame (read_committed hg (List.singleton_append ▸ htrace) hgate (fun x hx p hop => ?_) hread)]
    · exact .inr ⟨rfl, rfl⟩
    · obtain rfl := List.mem_singleton.mp hx
      cases hop

end alone

/-! ### A setup that overtakes a confirmation, and one that does not -/

namespace Sample

/-- Digests tell short inputs apart, and a code tells its secret. -/
def secret_server : Server Payload :=
  { server with
    sha256 := text_of
    totp_at := fun secret step => secret ++ Nat.repr (10000 + step.toNat % 10000) }

/-- The secret that a request draws is its serial number. -/
def Line.arrival (l : Line) : Arrival Payload :=
  ⟨{ env l.serial l.now with totp_secret := Nat.repr l.serial }, l.req⟩

def nothing_stored : Outside := ⟨fun _ => none, [], []⟩

def owner_token : Option Payload := some (access_claims 4096#128 8192#128 (101 * second))

/-- An account with an enrolment, secret `"3"`, that is not confirmed. -/
def enrolling : List Line :=
  [⟨3, 102 * second, ⟨owner_token, .mfa_setup⟩⟩,
    ⟨2, 101 * second, ⟨none, .login "a@x.org" "correct horse"⟩⟩,
    ⟨1, 100 * second, ⟨none, .register "a@x.org" "correct horse" none⟩⟩]

def second_setup : Line := ⟨4, 103 * second, ⟨owner_token, .mfa_setup⟩⟩

def confirmation : Line := ⟨5, 120 * second, ⟨owner_token, .mfa_confirm "310004"⟩⟩

/-- A request from beginning to end. -/
def whole (l : Line) : List (Turn (Arrival Payload)) := [.finish 0, .move (.begin 0 l.arrival)]

/-- A second setup has read the enrolment when a confirmation of `"3"` comes and goes. -/
def overtaken : List (Turn (Arrival Payload)) :=
  whole confirmation ++
    [.move (.call 1), .move (.call 1), .move (.call 1), .move (.begin 1 second_setup.arrival)] ++
      enrolling.flatMap whole

abbrev play_script (turns : List (Turn (Arrival Payload))) : Option (Traffic Payload) :=
  play_turns schema run_ext (Arrival.handler secret_server) (Traffic.start nothing_stored) turns

/-- Requests served one after another, latest first, and then a newcomer in slot 1 with
    its first calls. -/
def joined_by (srv : Server Payload) (ls : List Line) (l : Line) (calls : Nat) :
    Option (Traffic Payload) :=
  (one_by_one srv nothing_stored (ls.map Line.arrival)).bind (fun w =>
    play_turns schema run_ext (Arrival.handler srv) ⟨w.db, w.ext, fun _ => none⟩
      (joining 1 l.arrival calls))

theorem run_joined_by {srv : Server Payload}
    (may : TrafficPast Payload → Traffic Payload → Move (Arrival Payload) → Prop)
    {ls : List Line} {l : Line} {calls : Nat} {s : Traffic Payload}
    (hserved : ∀ w, one_by_one srv nothing_stored (ls.map Line.arrival) = some w →
      ∃ past, Run (traffic srv) may (Traffic.start nothing_stored) past
        ⟨w.db, w.ext, fun _ => none⟩)
    (hbegin : ∀ past s n a, may past s (.begin n a)) (hcall : ∀ past s n, may past s (.call n))
    (h : joined_by srv ls l calls = some s) :
    ∃ past, Run (traffic srv) may (Traffic.start nothing_stored) past s := by
  obtain ⟨w, hw, hplay⟩ := Option.bind_eq_some_iff.mp h
  obtain ⟨past, hr⟩ := hserved w hw
  obtain ⟨past', hr', _⟩ :=
    run_joined hr (hbegin past _ 1 _) (fun past s => hcall past s 1) hplay
  exact ⟨past', hr'⟩

/-- The newcomer is still in flight, and its answer is a refusal with this status. -/
def refuses_newcomer (status : Nat) (s : Traffic Payload) : Bool :=
  match s.running 1 with
  | some ⟨_, .raise (.http e), _⟩ => decide (e.status = status)
  | _ => false

theorem refused_of_refuses {status : Nat} {s : Traffic Payload}
    (h : refuses_newcomer status s = true) :
    ∃ f e, s.running 1 = some f ∧ f.rest = .raise (.http e) ∧ e.status = status := by
  unfold refuses_newcomer at h
  split at h
  · next e _ hf => exact ⟨_, e, hf, rfl, of_decide_eq_true h⟩
  · cases h

/-- An enrolment is active in the first state, and holds another secret in the second. -/
def replaces (s s' : Traffic Payload) : Bool :=
  (s.db .user_mfa).any (fun m : UserMfa => m.is_active && (s'.db .user_mfa).any (fun m' : UserMfa =>
    decide (m'.id = m.id) && decide (m'.encrypted_secret ≠ m.encrypted_secret)))

theorem not_held_of_replaces {s s' : Traffic Payload} (h : replaces s s' = true) :
    ¬ SecretsHeld s s' := by
  intro hheld
  obtain ⟨m, hm, hboth⟩ := List.any_eq_true.mp h
  obtain ⟨hact, hother⟩ := Bool.and_eq_true_iff.mp hboth
  obtain ⟨m', hm', hboth⟩ := List.any_eq_true.mp hother
  obtain ⟨hid, hsecret⟩ := Bool.and_eq_true_iff.mp hboth
  exact of_decide_eq_true hsecret (hheld m hm hact m' hm' (of_decide_eq_true hid)).1

end Sample

/-- The second setup goes on, and replaces the secret that has been confirmed. -/
theorem confirmed_secret_replaced :
    ¬ ∀ past s, Run (traffic Sample.secret_server) unrestricted
        (Traffic.start Sample.nothing_stored) past s →
      SecretsProved Sample.secret_server past s ∧
        ∀ move s', traffic Sample.secret_server s move s' → SecretsHeld s s' := by
  intro hall
  have hscript : (Sample.play_script Sample.overtaken).any (fun s =>
      (take_turn schema run_ext (Arrival.handler Sample.secret_server) (.finish 1) s).any
        (Sample.replaces s)) = true := by
    decide +kernel
  obtain ⟨s, hs, hafter⟩ := (Option.any_eq_true _ _).mp hscript
  obtain ⟨s', hs', hreplaces⟩ := (Option.any_eq_true _ _).mp hafter
  obtain ⟨past, hr⟩ := run_turns hs
  obtain ⟨past₁, s₁, hr₁, hdb, hcommit⟩ := finish_commits hr hs'
  have hheld : SecretsHeld s₁ s' := (hall past₁ s₁ hr₁).2 _ s' hcommit
  unfold SecretsHeld at hheld
  rw [hdb] at hheld
  exact Sample.not_held_of_replaces hreplaces hheld

namespace Sample

/-- A request served alone, when it succeeds. -/
def serve_alone (l : Line) (w : Committed) : Option Committed :=
  match (l.arrival.handler secret_server).exec (perform schema run_ext) ⟨w.db, w.ext, []⟩ with
  | (.ok _, t) => some ⟨t.db, t.ext⟩
  | (.error _, _) => none

/-- The requests of a script one after another, latest first. -/
def serve_all : List Line → Option Committed
  | [] => some ⟨fun _ => [], nothing_stored⟩
  | l :: earlier => (serve_all earlier).bind (serve_alone l)

theorem serve_all_one_by_one (ls : List Line) :
    serve_all ls = one_by_one secret_server nothing_stored (ls.map Line.arrival) := by
  induction ls with
  | nil => rfl
  | cons l earlier ih =>
    show (serve_all earlier).bind (serve_alone l) =
      (one_by_one secret_server nothing_stored (earlier.map Line.arrival)).bind
        (l.arrival.alone secret_server)
    rw [ih]
    congr 1
    funext w
    unfold serve_alone Arrival.alone
    cases (l.arrival.handler secret_server).exec (perform schema run_ext) ⟨w.db, w.ext, []⟩ with
    | mk r t => cases r <;> rfl

/-- One after another, requests do not disturb each other. -/
theorem undisturbed_serve_all {ls : List Line} {w : Committed} (h : serve_all ls = some w) :
    ∃ past, Run (traffic secret_server) Undisturbed (Traffic.start nothing_stored) past
      ⟨w.db, w.ext, fun _ => none⟩ := by
  rw [serve_all_one_by_one] at h
  refine run_one_by_one ?_ ?_ ?_ h
  · intro _ _ _ _ _ _ hmove
    cases hmove
  · intro _ _ _ _ _ hmove
    cases hmove
  · intro past s f reply hr hflies _ hret hrows
    exact undisturbed_alone hr hflies hret hrows

end Sample

/-- The confirmation alone: the enrolment is active, with the secret that was confirmed. -/
theorem confirmed_secret_kept :
    ∃ past s, Run (traffic Sample.secret_server) Undisturbed (Traffic.start Sample.nothing_stored)
        past s ∧ (∃ m ∈ s.db .user_mfa, UserMfa.is_active m = true) ∧
      SecretsProved Sample.secret_server past s ∧
        ∀ move s', Undisturbed past s move → traffic Sample.secret_server s move s' →
          SecretsHeld s s' := by
  have hscript : (Sample.serve_all (Sample.confirmation :: Sample.enrolling)).any (fun w =>
      (w.db .user_mfa).any UserMfa.is_active) = true := by
    decide +kernel
  obtain ⟨w, hw, hactive⟩ := (Option.any_eq_true _ _).mp hscript
  obtain ⟨past, hr⟩ := Sample.undisturbed_serve_all hw
  exact ⟨past, _, hr, List.any_eq_true.mp hactive, active_secret_proved hr⟩

end CounselReady
