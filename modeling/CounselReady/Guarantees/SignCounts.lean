import CounselReady.Guarantees.ActiveSecret

/-! # The Counter of a Passkey

    A sign-in reads the stored count, has the assertion checked against it, and
    writes the new count to the row, whatever the row holds by then.

    * `Unovertaken`: what a commit must find for the count not to fall.
    * `sign_counts_ascend`: while commits find that, the committed count of a
      passkey never falls, and an assertion that is behind a committed count when
      its request begins is not accepted.
-/

namespace CounselReady

open Relational Framework Handler Prog

variable {Token : Type} {srv : Server Token}

/-! ### What a sign-in has read and written when it returns -/

/-- The count that the package returns for the credential, under this passkey. -/
def verified_count (srv : Server Token) (credential : Credential) (passkey : Passkey) : Option Nat :=
  credential.challenge.bind (fun presented =>
    (srv.base64url_to_bytes presented).bind (fun challenge =>
      (srv.webauthn_authentication (relying_party srv) credential challenge passkey.public_key
        passkey.sign_count).toOption))

/-- No passkey is looked for or updated. -/
def aside : Op Row Patch Uuid Ext → Prop
  | .select .passkey _ => False
  | .write (.update .passkey _ _) => False
  | _ => True

/-- A sign-in reads one passkey, and updates it. Until it reads it, it has but deleted. -/
structure LoginTrace (srv : Server Token) (a : Arrival Token) (credential : Credential)
    (r : Passkey) (count : Nat) (later gate l : Trace) : Prop where
  trace : ∃ p, l = later ++ ⟨.select .passkey p, [r]⟩ :: gate
  verified : verified_count srv credential r = some count
  gate : ∀ x ∈ gate, aside x.1 ∧ ∀ w, x.1 = .write w → ∃ t id, w = .delete t id
  later : ∀ x ∈ later, aside x.1 ∨
    x.1 = .write (.update .passkey r.id (assertion_patch a.env r count))

section trace
variable {β : Type} {Q : Trace → β → Prop} {l : Trace}

theorem ends_consume_challenge_bind {env : Env} {credential : Credential} {f : Bytes → Handler β}
    (hf : ∀ presented challenge (record : PasskeyChallenge),
      credential.challenge = some presented → srv.base64url_to_bytes presented = some challenge →
      Ends Q (⟨.write (.delete .passkey_challenge record.id), .ok ()⟩ ::
        ⟨.select .passkey_challenge (fun c : PasskeyChallenge => c.challenge == presented),
          [record]⟩ :: l) (f challenge)) :
    Ends Q l (consume_challenge srv env credential >>= f) := by
  refine ends_bind ?_
  refine ends_some_or_bind fun presented hpresented => ?_
  refine ends_select_one_bind ?_ fun record _ _ _ => ?_
  · exact ends_some_or_bind fun _ h => by cases h
  refine ends_some_or_bind fun record' hrecord => ?_
  cases hrecord
  refine ends_require_bind fun _ => ends_execute_bind ?_
  cases hbytes : srv.base64url_to_bytes presented with
  | none => trivial
  | some challenge => exact hf presented challenge record hpresented hbytes

theorem ends_verified_bind {α : Type} {r : Except WebauthnError α} {f : α → Handler β}
    (hf : ∀ a, r = .ok a → Ends Q l (f a)) : Ends Q l (verified r >>= f) := by
  refine ends_bind ?_
  cases r with
  | ok a => exact hf a rfl
  | error e => cases e <;> trivial

theorem confined_rest {env : Env} {account : UserAccount} :
    Confined aside (complete_mfa_login srv env account >>= fun issued => pure (tokens issued)) := by
  refine confined_bind (confined_bind (confined_bind (confined_insert trivial) fun _ => ?_)
    fun issued => ?_) fun _ => every_pure _
  · exact confined_bind (confined_sign trivial) fun _ => every_pure _
  · exact confined_bind (confined_insert trivial) fun _ => every_pure _

theorem login_trace {a : Arrival Token} {credential : Credential}
    (hroute : a.req.route = .passkey_login_complete credential) :
    Ends (fun l _ => ∃ r count later gate, LoginTrace srv a credential r count later gate l) []
      (a.handler srv) := by
  obtain ⟨env, ⟨credentials, route⟩⟩ := a
  obtain rfl : route = .passkey_login_complete credential := hroute
  refine ends_consume_challenge_bind fun presented challenge record hpresented hbytes => ?_
  refine ends_some_or_bind fun credential_id _ => ?_
  refine ends_select_one_bind ?_ fun r _ _ _ => ?_
  · exact ends_some_or_bind fun _ h => by cases h
  refine ends_some_or_bind fun r' hr' => ?_
  cases hr'
  refine ends_select_one_bind ?_ fun account _ _ _ => ?_
  · exact ends_some_or_bind fun _ h => by cases h
  refine ends_some_or_bind fun account' haccount => ?_
  cases haccount
  refine ends_require_bind fun _ => ?_
  -- verified against the count that was read; after the update nothing touches the passkey
  refine ends_verified_bind fun count hcount => ?_
  refine ends_execute_bind (ends_mono (ends_confined confined_rest) ?_)
  rintro l _ ⟨tail, rfl, htail⟩
  refine ⟨r, count, tail ++ [_, _], _, ⟨_, by rw [List.append_assoc]; rfl⟩, ?_, ?_, ?_⟩
  · unfold verified_count
    rw [hpresented, Option.bind_some, hbytes, Option.bind_some, hcount]
    rfl
  · intro x hx
    rcases List.mem_cons.mp hx with rfl | hx
    · exact ⟨trivial, fun w hw => ⟨_, _, (Op.write.inj hw).symm⟩⟩
    · obtain rfl := List.mem_singleton.mp hx
      exact ⟨trivial, fun w hw => by cases hw⟩
  · intro x hx
    rcases List.mem_append.mp hx with hrest | hx
    · exact .inl (htail x hrest)
    · rcases List.mem_cons.mp hx with rfl | hx
      · exact .inr rfl
      · obtain rfl := List.mem_singleton.mp hx
        exact .inl trivial

end trace

/-! ### The condition -/

/-- The package's rule: both counts are zero, or the new one is ahead. -/
def CountsUp (srv : Server Token) : Prop :=
  ∀ party credential challenge public_key stored count,
    srv.webauthn_authentication party credential challenge public_key stored = .ok count →
      (stored = 0 ∧ count = 0) ∨ stored < count

/-- A sign-in that returns: the passkey it has read, and the count of its assertion. -/
structure Accepted (srv : Server Token) (f : InFlight Token) (r : Passkey) (count : Nat) :
    Prop where
  read : ∃ e ∈ f.seen, r ∈ e.handed .passkey
  verified : ∃ credential, f.job.req.route = .passkey_login_complete credential ∧
    verified_count srv credential r = some count
  returned : ∃ reply, f.rest = .ret reply

/-- A sign-in commits while no higher count is committed for its passkey than the one it
    comes with. A count of zero is not written. -/
def Unovertaken (srv : Server Token) (_ : TrafficPast Token) (s : Traffic Token)
    (move : Move (Arrival Token)) : Prop :=
  ∀ n f, move = .commit n → s.running n = some f → ∀ r count, Accepted srv f r count →
    count ≠ 0 → ∀ p ∈ s.db .passkey, Passkey.id p = r.id → p.sign_count ≤ count

/-- No count falls. -/
def CountsKept (db db' : Database) : Prop :=
  ∀ p ∈ db .passkey, ∀ p' ∈ db' .passkey, Passkey.id p' = Passkey.id p →
    p.sign_count ≤ Passkey.sign_count p'

/-- An assertion that is accepted is ahead of every count, but zero, that its passkey had
    when the request began or before, if the passkey has been there since. -/
def AheadOfCommitted (srv : Server Token) (past : TrafficPast Token) (s : Traffic Token) : Prop :=
  ∀ n f r count, s.running n = some f → Accepted srv f r count →
    ∀ later (x : Move (Arrival Token) × Traffic Token) earlier, past = later ++ x :: earlier →
      TakenSince n x later → (∀ y ∈ later, ∃ q ∈ y.2.db .passkey, Passkey.id q = r.id) →
        ∀ p ∈ x.2.db .passkey, Passkey.id p = r.id → p.sign_count ≠ 0 → p.sign_count < count

/-! ### A sign-in -/

section commits
variable {past : TrafficPast Token} {s : Traffic Token} {f g : InFlight Token} {n : Nat}
  {db' : Database} {r : Passkey} {count : Nat} {credential : Credential}

/-- What a sign-in has done when it returns. -/
structure LoginDone (srv : Server Token) (f : InFlight Token) (credential : Credential)
    (r : Passkey) (count : Nat) : Prop where
  verified : verified_count srv credential r = some count
  found : ∃ e ∈ f.seen, r ∈ e.handed .passkey ∧ r ∈ e.rows .passkey
  only : ∀ e ∈ f.seen, ∀ r' ∈ e.handed .passkey, r' = r
  updates : ∀ id patch, .update .passkey id patch ∈ f.log →
    id = r.id ∧ patch = assertion_patch f.job.env r count

theorem login_done (hf : Genuine schema run_ext (Arrival.handler srv) past f)
    (hroute : f.job.req.route = .passkey_login_complete credential)
    (hret : ∃ reply, f.rest = .ret reply) : ∃ r count, LoginDone srv f credential r count := by
  obtain ⟨reply, hret⟩ := hret
  have hout := hf.traced.outline (login_trace hroute) hf.keyed
  rw [hret] at hout
  obtain ⟨r, count, later, gate, ⟨p, htrace⟩, hverified, hgate, hlater⟩ := hout
  -- passkeys are read once, by their credential id
  have hselects : ∀ x ∈ later ++ gate, ∀ p', x.1 ≠ .select .passkey p' := by
    intro x hx p' hop
    rcases List.mem_append.mp hx with hx | hx
    · rcases hlater x hx with haside | hupdate
      · rw [hop] at haside
        exact haside
      · rw [hop] at hupdate
        cases hupdate
    · have haside := (hgate x hx).1
      rw [hop] at haside
      exact haside
  refine ⟨r, count, hverified, ?_, ?_, ?_⟩
  · obtain ⟨e, he, hhanded, hrows⟩ := hf.first_found (rigid (by decide)) htrace
      (fun x hx => hselects x (List.mem_append_right _ hx)) fun x hx => (hgate x hx).2
    refine ⟨e, he, ?_, hrows r (List.mem_singleton_self r)⟩
    rw [hhanded]
    exact List.mem_singleton_self r
  · intro e he r' hr'
    obtain ⟨p', rows, hexchange, hin⟩ := Event.select_of_handed hr'
    have hcall : e.exchange ∈ f.seen.map Event.exchange := List.mem_map_of_mem he
    rw [hexchange, htrace] at hcall
    rcases List.mem_append.mp hcall with hx | hx
    · exact absurd rfl (hselects _ (List.mem_append_left _ hx) p')
    · rcases List.mem_cons.mp hx with heq | hx
      · cases heq
        exact List.mem_singleton.mp hin
      · exact absurd rfl (hselects _ (List.mem_append_right _ hx) p')
  · -- and written once, with the count that was verified
    intro id patch hw
    have hcall := mem_wrote hw
    rw [htrace] at hcall
    rcases List.mem_append.mp hcall with hx | hx
    · rcases hlater _ hx with haside | hupdate
      · exact haside.elim
      · cases hupdate
        exact ⟨rfl, rfl⟩
    · rcases List.mem_cons.mp hx with heq | hx
      · cases heq
      · exact (hgate _ hx).1.elim

theorem LoginDone.accepted (h : LoginDone srv f credential r count)
    (hroute : f.job.req.route = .passkey_login_complete credential)
    (hret : ∃ reply, f.rest = .ret reply) : Accepted srv f r count := by
  obtain ⟨e, he, hhanded, _⟩ := h.found
  exact ⟨⟨e, he, hhanded⟩, ⟨credential, hroute, h.verified⟩, hret⟩

/-- The passkey that was read was committed, with the count that was read. -/
theorem Accepted.found (h : Accepted srv f r count)
    (hf : Genuine schema run_ext (Arrival.handler srv) past f) :
    ∃ e ∈ f.seen, r ∈ e.rows .passkey := by
  obtain ⟨credential, hroute, _⟩ := h.verified
  obtain ⟨r₀, _, hdone⟩ := login_done hf hroute h.returned
  obtain ⟨e, he, hhanded⟩ := h.read
  obtain rfl := hdone.only e he r hhanded
  obtain ⟨e', he', _, hrows⟩ := hdone.found
  exact ⟨e', he', hrows⟩

theorem Accepted.ahead (h : Accepted srv f r count) (hup : CountsUp srv) :
    (r.sign_count = 0 ∧ count = 0) ∨ r.sign_count < count := by
  obtain ⟨credential, _, hverified⟩ := h.verified
  obtain ⟨presented, _, hverified⟩ := Option.bind_eq_some_iff.mp hverified
  obtain ⟨challenge, _, hcount⟩ := Option.bind_eq_some_iff.mp hverified
  cases hanswer : srv.webauthn_authentication (relying_party srv) credential challenge r.public_key
      r.sign_count with
  | error e =>
    rw [hanswer] at hcount
    cases hcount
  | ok count' =>
    rw [hanswer] at hcount
    obtain rfl := Option.some.inj hcount
    exact hup _ _ _ _ _ _ hanswer

/-! ### What a commit does to the counts -/

/-- Every passkey there is was there before, with no higher count. -/
def Raises (db db' : Database) : Prop :=
  ∀ p' ∈ db' .passkey, ∃ p ∈ db .passkey, Passkey.id p = Passkey.id p' ∧
    p.sign_count ≤ Passkey.sign_count p'

theorem Raises.kept {db : Database} (h : Raises db db') (hc : schema.Consistent db) :
    CountsKept db db' := by
  intro p hp p' hp' hid
  obtain ⟨p₀, hp₀, hid₀, hle⟩ := h p' hp'
  obtain rfl : p₀ = p := hc.eq_of_pk hp₀ hp (hid₀.trans hid)
  exact hle

/-- A transaction that adds no passkey, and whose updates lower no count. -/
theorem raised_by (hg : Genuine schema run_ext (Arrival.handler srv) past g)
    (hadds : g.job.req.route.adds_passkey = false)
    (hupdates : ∀ id patch, .update .passkey id patch ∈ g.log →
      ∀ p ∈ s.db .passkey, Passkey.id p = id → ∀ p₁ : Passkey, p.sign_count ≤ p₁.sign_count →
        p.sign_count ≤ (PasskeyPatch.apply patch p₁).sign_count)
    (hredo : redo schema g.log s.db = some db') : Raises s.db db' := by
  refine redo_invariant (J := Raises s.db) hredo (fun p hp => ⟨p, hp, rfl, Nat.le_refl _⟩) ?_
  intro w hw db _ hdb p' hp'
  rcases Schema.mem_effect_resolve (rigid (by decide)) hp' with hold | rfl |
    ⟨id, patch, p₁, hp₁, rfl, hid, rfl⟩
  · exact hdb p' hold
  · have hroute : g.job.req.route.adds_passkey = true := (log_permitted hg hw).2
    rw [hadds] at hroute
    cases hroute
  · obtain ⟨p, hp, hpid, hle⟩ := hdb p₁ hp₁
    refine ⟨p, hp, ?_, hupdates id patch hw p hp (hpid.trans hid) p₁ hle⟩
    cases patch
    exact hpid

/-- A sign-in that is not overtaken. -/
theorem kept_by_login (hup : CountsUp srv) (hg : Genuine schema run_ext (Arrival.handler srv) past g)
    (hc : schema.Consistent s.db) (hroute : g.job.req.route = .passkey_login_complete credential)
    (hret : ∃ reply, g.rest = .ret reply) (hflies : s.running n = some g)
    (hund : Unovertaken srv past s (.commit n)) (hredo : redo schema g.log s.db = some db') :
    CountsKept s.db db' := by
  obtain ⟨r, count, hdone⟩ := login_done hg hroute hret
  have haccepted := hdone.accepted hroute hret
  have hadds : g.job.req.route.adds_passkey = false := by
    rw [hroute]
    rfl
  refine (raised_by hg hadds ?_ hredo).kept hc
  intro id patch hw p hp hid p₁ hle
  obtain ⟨rfl, rfl⟩ := hdone.updates id patch hw
  unfold assertion_patch
  by_cases hsame : count = r.sign_count
  · -- the count is not written
    rw [if_pos hsame]
    exact hle
  · rw [if_neg hsame]
    show p.sign_count ≤ count
    have hahead := haccepted.ahead hup
    exact hund n g rfl hflies r count haccepted (by omega) p hp hid

/-- A registration takes no passkey away, and changes none. -/
theorem stays_by_registration {env : Env} {route : Route Token} {w : Write Row Patch Uuid}
    {db : Database} {p : Passkey} (hp : permits srv env route (.write w))
    (hadds : route.adds_passkey = true) (hold : p ∈ db .passkey) :
    p ∈ schema.effect (schema.resolve db w) db .passkey := by
  obtain ⟨credential, label, rfl⟩ : ∃ credential label, route = .register_complete credential label := by
    cases route <;> first | exact ⟨_, _, rfl⟩ | cases hadds
  cases w with
  | insert t row =>
    show p ∈ schema.effect (.insert t row) db .passkey
    by_cases ht : t = .passkey
    · subst ht
      exact Schema.mem_effect_insert.mpr (.inl hold)
    · rwa [Schema.effect_insert_ne _ _ ht]
  | update t id patch =>
    show p ∈ schema.effect (.update t id patch) db .passkey
    have ht : t ≠ .passkey := by
      rintro rfl
      cases hp
    rwa [Schema.effect_update_ne _ _ _ ht]
  | delete t id =>
    show p ∈ schema.effect (.remove (schema.doomed db t id)) db .passkey
    have ht : t = .passkey_challenge := by
      cases t <;> first | rfl | cases hp
    subst ht
    rw [deleted_alone challenge_leaf (rigid (t := .passkey) (by decide))]
    exact List.mem_filter.mpr ⟨hold, by simp⟩

theorem kept_by_registration (hg : Genuine schema run_ext (Arrival.handler srv) past g)
    (hc : schema.Consistent s.db) (hadds : g.job.req.route.adds_passkey = true)
    (hredo : redo schema g.log s.db = some db') : CountsKept s.db db' := by
  have hstays : ∀ p ∈ s.db .passkey, p ∈ db' .passkey := by
    refine redo_invariant (J := fun db => ∀ p ∈ s.db .passkey, p ∈ db .passkey) hredo
      (fun _ hp => hp) ?_
    intro w hw db _ hdb p hp
    exact stays_by_registration (log_permitted hg hw) hadds (hdb p hp)
  intro p hp p' hp' hid
  have hc' : schema.Consistent db' := redo_consistent schema_regular hredo hc
  obtain rfl : p' = p := hc'.eq_of_pk hp' (hstays p hp) hid
  exact Nat.le_refl _

end commits

/-! ### Runs -/

section runs
variable {ext : Outside} {past : TrafficPast Token} {s s' : Traffic Token}

/-- **Step.** No count goes back in a move that overtakes no sign-in. -/
theorem counts_kept {may : TrafficPast Token → Traffic Token → Move (Arrival Token) → Prop}
    (hup : CountsUp srv) (hr : Run (traffic srv) may (Traffic.start ext) past s)
    {move : Move (Arrival Token)} (hund : Unovertaken srv past s move)
    (hmove : traffic srv s move s') : CountsKept s.db s'.db := by
  have hc := traffic_consistent hr
  rcases hmove.commits past with ⟨hdb, _⟩ | ⟨n, g, reply, rfl, hflies, hret, hredo, _⟩
  · rw [hdb]
    intro p hp p' hp' hid
    obtain rfl : p' = p := hc.eq_of_pk hp' hp hid
    exact Nat.le_refl _
  · have hg := (run_genuine hr fun _ => rfl).1 n g hflies
    by_cases hadds : g.job.req.route.adds_passkey = true
    · exact kept_by_registration hg hc hadds hredo
    · by_cases huses : g.job.req.route.uses_passkey = true
      · obtain ⟨credential, hroute⟩ : ∃ credential,
            g.job.req.route = .passkey_login_complete credential := by
          cases hroute : g.job.req.route <;> rw [hroute] at huses <;>
            first | exact ⟨_, rfl⟩ | cases huses
        exact kept_by_login hup hg hc hroute ⟨reply, hret⟩ hflies hund hredo
      · refine (raised_by hg (Bool.eq_false_of_not_eq_true hadds) ?_ hredo).kept hc
        intro id patch hw
        exact absurd (log_permitted hg hw) huses

/-- **Run.** The count of a passkey that stays does not fall. -/
theorem counts_ascend (hup : CountsUp srv)
    (hr : Run (traffic srv) (Unovertaken srv) (Traffic.start ext) past s)
    {later earlier : TrafficPast Token} {x : Move (Arrival Token) × Traffic Token}
    (hpast : past = later ++ x :: earlier) {id : Uuid}
    (hstays : ∀ y ∈ later, ∃ q ∈ y.2.db .passkey, Passkey.id q = id) {p p' : Passkey}
    (hp : p ∈ x.2.db .passkey) (hid : p.id = id) (hp' : p' ∈ s.db .passkey) (hid' : p'.id = id) :
    p.sign_count ≤ p'.sign_count := by
  induction later generalizing past s p' with
  | nil =>
    cases hr with
    | start => cases hpast
    | next move hr hund hmove =>
      obtain ⟨rfl, _⟩ := List.cons.inj hpast
      exact counts_kept hup hr hund hmove p hp p' hp' (hid'.trans hid.symm)
  | cons y later ih =>
    cases hr with
    | start => cases hpast
    | next move hr hund hmove =>
      obtain ⟨rfl, htail⟩ := List.cons.inj hpast
      obtain ⟨q, hq, hqid⟩ := hstays _ List.mem_cons_self
      have hbefore : p.sign_count ≤ q.sign_count :=
        ih hr htail (fun z hz => hstays z (List.mem_cons_of_mem _ hz)) hq hqid
      have hstep : q.sign_count ≤ p'.sign_count :=
        counts_kept hup hr hund hmove q hq p' hp' (hid'.trans hqid.symm)
      omega

/-- **The counter never goes backwards.** In every run whose commits are all `Unovertaken`,
    however its requests interleave: no move lowers the committed count of a passkey, and an
    assertion that is accepted is ahead of what was committed when its request began. -/
theorem sign_counts_ascend (hup : CountsUp srv)
    (hr : Run (traffic srv) (Unovertaken srv) (Traffic.start ext) past s) :
    AheadOfCommitted srv past s ∧
      ∀ move s', Unovertaken srv past s move → traffic srv s move s' → CountsKept s.db s'.db := by
  refine ⟨?_, fun move s' hund hmove => counts_kept hup hr hund hmove⟩
  intro n f r count hflies haccepted later x earlier hpast htaken hstays p hp hid hcount
  -- the row that the assertion was checked against was committed after that
  obtain ⟨e, he, hrow⟩ := haccepted.found ((run_genuine hr fun _ => rfl).1 n f hflies)
  obtain ⟨y, hy, hdb⟩ := run_since hr (fun _ => rfl) hflies hpast htaken e he
  rw [← hdb] at hrow
  obtain ⟨later₁, later₂, rfl⟩ := List.append_of_mem hy
  rw [List.append_assoc] at hpast
  have hr' : Run (traffic srv) (Unovertaken srv) (Traffic.start ext) (later₂ ++ x :: earlier)
      y.2 := (Run.split (hpast ▸ hr)).1
  have hle : p.sign_count ≤ r.sign_count := by
    refine counts_ascend hup hr' rfl (fun z hz => hstays z ?_) hp hid hrow rfl
    exact List.mem_append_right _ (List.mem_cons_of_mem y hz)
  have hahead := haccepted.ahead hup
  omega

/-- One after another, sign-ins do not overtake each other. -/
theorem unovertaken_one_by_one (hup : CountsUp srv) {as : List (Arrival Token)} {w : Committed}
    (h : one_by_one srv ext as = some w) :
    ∃ past, Run (traffic srv) (Unovertaken srv) (Traffic.start ext) past
      ⟨w.db, w.ext, fun _ => none⟩ := by
  refine run_one_by_one ?_ ?_ ?_ h
  · intro _ _ _ _ _ _ hmove
    cases hmove
  · intro _ _ _ _ _ hmove
    cases hmove
  · intro past s f reply hr hflies _ _ hrows n g hmove hg r count haccepted hcount p hp hid
    obtain rfl := Move.commit.inj hmove
    obtain rfl : f = g := Option.some.inj (hflies.symm.trans hg)
    -- the row that was read is the one that is there
    obtain ⟨e, he, hrow⟩ := haccepted.found ((run_genuine hr fun _ => rfl).1 0 f hflies)
    rw [hrows e he] at hrow
    obtain rfl : p = r := (traffic_consistent hr).eq_of_pk hp hrow hid
    have hahead := haccepted.ahead hup
    omega

end runs

/-! ### A sign-in that is overtaken, and one that is not -/

namespace Sample

/-- The count of an assertion is the length of its JSON. -/
def counting_server : Server Payload :=
  { secret_server with
    webauthn_authentication := fun _ credential _ _ stored =>
      if (stored = 0 ∧ credential.json.length = 0) ∨ stored < credential.json.length then
        .ok credential.json.length
      else .error .refused }

theorem counting_server_counts : CountsUp counting_server := by
  intro party credential challenge public_key stored count hcount
  have hcount : (if (stored = 0 ∧ credential.json.length = 0) ∨ stored < credential.json.length then
      Except.ok credential.json.length else .error WebauthnError.refused) = .ok count := hcount
  split at hcount
  · obtain rfl := Except.ok.inj hcount
    assumption
  · cases hcount

/-- An account with a passkey, whose count is zero, and with two challenges for it. -/
def challenged : List Line :=
  [⟨7, 105 * second, ⟨none, .passkey_login_begin "a@x.org"⟩⟩,
    ⟨6, 105 * second, ⟨none, .passkey_login_begin "a@x.org"⟩⟩,
    ⟨5, 104 * second, ⟨owner_token, .register_complete ⟨some "4", some "key", "key"⟩ none⟩⟩,
    ⟨4, 103 * second, ⟨owner_token, .register_begin⟩⟩,
    ⟨2, 101 * second, ⟨none, .login "a@x.org" "correct horse"⟩⟩,
    ⟨1, 100 * second, ⟨none, .register "a@x.org" "correct horse" none⟩⟩]

/-- An assertion with the count five. -/
def fifth : Line :=
  ⟨8, 106 * second, ⟨none, .passkey_login_complete ⟨some "6", some "key", "-----"⟩⟩⟩

def seventh : Line :=
  ⟨9, 106 * second, ⟨none, .passkey_login_complete ⟨some "7", some "key", "-------"⟩⟩⟩

/-- The fifth assertion has been checked when the seventh comes and goes. -/
def overtaken_by_seventh : List (Turn (Arrival Payload)) :=
  whole seventh ++
    [.move (.call 1), .move (.call 1), .move (.call 1), .move (.call 1),
      .move (.begin 1 fifth.arrival)] ++ challenged.flatMap whole

/-- The assertion in slot 1 is accepted, with this count. -/
def accepts_count (count : Nat) (s : Traffic Payload) : Bool :=
  match s.running 1 with
  | some ⟨⟨_, ⟨_, .passkey_login_complete credential⟩⟩, .ret _, seen⟩ =>
      seen.any (fun e => (e.handed .passkey).any (fun r =>
        decide (verified_count counting_server credential r = some count)))
  | _ => false

theorem accepted_of_accepts {count : Nat} {s : Traffic Payload} (h : accepts_count count s = true) :
    ∃ f r, s.running 1 = some f ∧ Accepted counting_server f r count := by
  unfold accepts_count at h
  split at h
  · next credential reply seen hf =>
    obtain ⟨e, he, hany⟩ := List.any_eq_true.mp h
    obtain ⟨r, hr, hcount⟩ := List.any_eq_true.mp hany
    exact ⟨_, r, hf, ⟨e, he, hr⟩, ⟨credential, rfl, of_decide_eq_true hcount⟩, ⟨reply, rfl⟩⟩
  · cases h

def count_falls (s s' : Traffic Payload) : Bool :=
  (s.db .passkey).any (fun p : Passkey => (s'.db .passkey).any (fun p' : Passkey =>
    decide (p'.id = p.id) && decide (p'.sign_count < p.sign_count)))

theorem not_kept_of_falls {s s' : Traffic Payload} (h : count_falls s s' = true) :
    ¬ CountsKept s.db s'.db := by
  intro hkept
  obtain ⟨p, hp, hboth⟩ := List.any_eq_true.mp h
  obtain ⟨p', hp', hboth⟩ := List.any_eq_true.mp hboth
  obtain ⟨hid, hless⟩ := Bool.and_eq_true_iff.mp hboth
  have hle := hkept p hp p' hp' (of_decide_eq_true hid)
  have hlt := of_decide_eq_true hless
  omega

end Sample

/-- The seventh assertion raises the count to seven, and the fifth takes it back to five. -/
theorem overtaken_count_falls :
    CountsUp Sample.counting_server ∧
      ¬ ∀ past s, Run (traffic Sample.counting_server) unrestricted
          (Traffic.start Sample.nothing_stored) past s →
        AheadOfCommitted Sample.counting_server past s ∧
          ∀ move s', traffic Sample.counting_server s move s' → CountsKept s.db s'.db := by
  refine ⟨Sample.counting_server_counts, fun hall => ?_⟩
  have hscript : (play_turns schema run_ext (Arrival.handler Sample.counting_server)
      (Traffic.start Sample.nothing_stored) Sample.overtaken_by_seventh).any (fun s =>
        (take_turn schema run_ext (Arrival.handler Sample.counting_server) (.finish 1) s).any
          (Sample.count_falls s)) = true := by
    decide +kernel
  obtain ⟨s, hs, hafter⟩ := (Option.any_eq_true _ _).mp hscript
  obtain ⟨s', hs', hfalls⟩ := (Option.any_eq_true _ _).mp hafter
  obtain ⟨past, hr⟩ := run_turns hs
  obtain ⟨past₁, s₁, hr₁, hdb, hcommit⟩ := finish_commits hr hs'
  have hkept : CountsKept s₁.db s'.db := (hall past₁ s₁ hr₁).2 _ s' hcommit
  rw [hdb] at hkept
  exact Sample.not_kept_of_falls hfalls hkept

/-- The fifth assertion has gone through when the seventh comes: the count is five, and
    the seventh, still in flight, has been accepted. -/
theorem later_count_ahead :
    CountsUp Sample.counting_server ∧
      ∃ past s, Run (traffic Sample.counting_server) (Unovertaken Sample.counting_server)
          (Traffic.start Sample.nothing_stored) past s ∧
        (∃ p ∈ s.db .passkey, Passkey.sign_count p = 5) ∧
        (∃ f r, s.running 1 = some f ∧ Accepted Sample.counting_server f r 7) ∧
        AheadOfCommitted Sample.counting_server past s ∧
          ∀ move s', Unovertaken Sample.counting_server past s move →
            traffic Sample.counting_server s move s' → CountsKept s.db s'.db := by
  have hscript : (Sample.joined_by Sample.counting_server (Sample.fifth :: Sample.challenged)
      Sample.seventh 8).any (fun s =>
        (s.db .passkey).any (fun p : Passkey => decide (p.sign_count = 5)) &&
          Sample.accepts_count 7 s) = true := by
    decide +kernel
  obtain ⟨s, hs, hboth⟩ := (Option.any_eq_true _ _).mp hscript
  obtain ⟨hfive, hseven⟩ := Bool.and_eq_true_iff.mp hboth
  obtain ⟨p, hp, hcount⟩ := List.any_eq_true.mp hfive
  have hup := Sample.counting_server_counts
  obtain ⟨past, hr⟩ := Sample.run_joined_by (Unovertaken Sample.counting_server)
    (fun w hw => unovertaken_one_by_one hup hw) (fun _ _ _ _ _ _ hmove => by cases hmove)
    (fun _ _ _ _ _ hmove => by cases hmove) hs
  exact ⟨hup, past, s, hr, ⟨p, hp, of_decide_eq_true hcount⟩, Sample.accepted_of_accepts hseven,
    sign_counts_ascend hup hr⟩

end CounselReady
