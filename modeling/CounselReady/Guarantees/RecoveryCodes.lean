import CounselReady.Specs.Enrolment
import CounselReady.Sample

/-! # Recovery Codes Live and Die with Their Enrolment

    The second factor of one account is a small machine (`FactorStep`), and the
    server refines it step by step (`factor_step`). What the machine keeps over
    its runs is carried back to the server here.

    * `Settled.step`: one step of the machine.
    * `recovery_codes_kept`: in every run, the codes on record are those of the
      enrolment on record, and an accepted code is one of these.
-/

namespace CounselReady

open Relational Framework Prog

variable {Token : Type} {srv : Server Token}

/-! ### The machine -/

namespace FactorEvent

def sets_up : FactorEvent → Bool
  | .set_up _ _ => true
  | _ => false

def accepts : FactorEvent → Bool
  | .accepted _ => true
  | _ => false

end FactorEvent

def unused (codes : List RecoveryCode) : List RecoveryCode :=
  codes.filter (fun c => c.used_at.isNone)

/-- The last enrolment of the events, latest first: its secret is the one stored, its codes
    are those on record, and the unused ones are those not accepted since. -/
structure LastSetUp (events : List FactorEvent) (encrypted_secret : String)
    (codes : List RecoveryCode) (later earlier : List FactorEvent) : Prop where
  split : events = later ++ .set_up encrypted_secret (codes.map RecoveryCode.digest) :: earlier
  last : ∀ e ∈ later, e.sets_up = false
  ten : codes.length = recovery_code_count
  remaining : (unused codes).length + later.countP FactorEvent.accepts = recovery_code_count

/-- What the events so far say about the second factor of an account. -/
structure Settled (events : List FactorEvent) (f : Factor) : Prop where
  paired : f.enrolment = [] → f.codes = []
  current : ∀ m ∈ f.enrolment, f.enrolment = [m] ∧ ∃ later earlier,
    LastSetUp events m.encrypted_secret f.codes later earlier
  used : ∀ c ∈ f.codes, c.used_at.isSome = true → ∀ m ∈ f.enrolment, m.is_active = true
  counted : ∀ m ∈ f.enrolment, m.is_active = true → m.last_used_counter.isSome = true

/-- An event that sets nothing up, after which as many codes are left as were, less one if
    it accepted one. -/
theorem LastSetUp.next {events later earlier : List FactorEvent} {secret : String}
    {codes codes' : List RecoveryCode} {e : FactorEvent}
    (h : LastSetUp events secret codes later earlier) (he : e.sets_up = false)
    (hsame : codes'.map RecoveryCode.digest = codes.map RecoveryCode.digest)
    (hleft : (unused codes').length + (if e.accepts then 1 else 0) = (unused codes).length) :
    LastSetUp (e :: events) secret codes' (e :: later) earlier where
  split := by rw [h.split, hsame, List.cons_append]
  last := List.forall_mem_cons.mpr ⟨he, h.last⟩
  ten := by
    have hlen := congrArg List.length hsame
    rw [List.length_map, List.length_map] at hlen
    rw [hlen]
    exact h.ten
  remaining := by
    have hremaining := h.remaining
    rw [List.countP_cons]
    omega

/-- Using a code leaves one less. -/
theorem unused_use {before after : List RecoveryCode} {c : RecoveryCode} {now : Nat}
    (hunused : c.used_at = none) :
    (unused (before ++ { c with used_at := some now } :: after)).length + 1 =
      (unused (before ++ c :: after)).length := by
  simp [unused, hunused]
  omega

theorem Settled.nothing (events : List FactorEvent) : Settled events ⟨[], []⟩ where
  paired := fun _ => rfl
  current := fun _ hm => absurd hm List.not_mem_nil
  used := fun _ hc => absurd hc List.not_mem_nil
  counted := fun _ hm => absurd hm List.not_mem_nil

theorem Settled.one {events : List FactorEvent} {m : UserMfa} {codes : List RecoveryCode}
    (current : ∃ later earlier, LastSetUp events m.encrypted_secret codes later earlier)
    (used : ∀ c ∈ codes, c.used_at.isSome = true → m.is_active = true)
    (counted : m.is_active = true → m.last_used_counter.isSome = true) :
    Settled events ⟨[m], codes⟩ where
  paired := fun h => absurd h (List.cons_ne_nil m [])
  current := by
    intro m' hm'
    rw [List.mem_singleton.mp hm']
    exact ⟨rfl, current⟩
  used := by
    intro c hc hused m' hm'
    rw [List.mem_singleton.mp hm']
    exact used c hc hused
  counted := by
    intro m' hm'
    rw [List.mem_singleton.mp hm']
    exact counted

/-- **Step** of the machine. -/
theorem Settled.step {events : List FactorEvent} {f f' : Factor} {e : FactorEvent}
    (h : Settled events f) (hstep : FactorStep f e f') : Settled (e :: events) f' := by
  cases hstep with
  | stay =>
    refine ⟨h.paired, fun m hm => ?_, h.used, h.counted⟩
    obtain ⟨hone, later, earlier, hlast⟩ := h.current m hm
    exact ⟨hone, .silent :: later, earlier, hlast.next rfl rfl rfl⟩
  | set_up _ m codes unconfirmed pending ten hunused =>
    have hall : unused codes = codes :=
      List.filter_eq_self.mpr fun c hc => by simp [hunused c hc]
    have hinactive : m.is_active = false := by simp [UserMfa.is_active, pending]
    refine .one ⟨[], events, rfl, by simp, ten, ?_⟩ (fun c hc hused => ?_) fun hact => ?_
    · rw [hall]
      exact ten
    · rw [hunused c hc] at hused
      cases hused
    · rw [hinactive] at hact
      cases hact
  | confirm m codes now step unconfirmed =>
    obtain ⟨_, later, earlier, hlast⟩ := h.current m (List.mem_singleton_self m)
    exact .one ⟨.silent :: later, earlier, hlast.next rfl rfl rfl⟩ (fun _ _ _ => rfl) fun _ => rfl
  | count m codes step active =>
    obtain ⟨_, later, earlier, hlast⟩ := h.current m (List.mem_singleton_self m)
    exact .one ⟨.silent :: later, earlier, hlast.next rfl rfl rfl⟩ (fun _ _ _ => active) fun _ => rfl
  | use m before after c now active hunused =>
    obtain ⟨_, later, earlier, hlast⟩ := h.current m (List.mem_singleton_self m)
    have hdigests : (before ++ { c with used_at := some now } :: after).map RecoveryCode.digest =
        (before ++ c :: after).map RecoveryCode.digest := by simp
    exact .one ⟨.accepted c.digest :: later, earlier, hlast.next rfl hdigests (unused_use hunused)⟩
      (fun _ _ _ => active) (h.counted m (List.mem_singleton_self m))
  | drop => exact .nothing _
  | drop_by_code => exact .nothing _

/-! ### Runs of the server -/

/-- What the run has announced to an account, latest first. -/
def factor_events (srv : Server Token) (h : History Token) (user_id : Uuid) : List FactorEvent :=
  h.past.map (factor_event srv user_id)

theorem Reaches.settled {C : History Token → Step Token → Prop} {h : History Token}
    (hr : Reaches srv C History.start h) (user_id : Uuid) :
    Settled (factor_events srv h user_id) (factor h.world.db user_id) := by
  induction hr with
  | refl => exact .nothing _
  | step s hr _ ih => exact ih.step (factor_step s hr.consistent user_id)

/-- The digests a step mints, when it sets up. -/
def minted (srv : Server Token) : Step Token × Committed → List String
  | (.request env ⟨credentials, .mfa_setup⟩, w) =>
      if (serve srv env ⟨credentials, .mfa_setup⟩ w).1.succeeded then minted_digests srv env else []
  | _ => []

/-- The digests of a new enrolment are none of those minted before. -/
def FreshDigests (srv : Server Token) (h : History Token) (s : Step Token) : Prop :=
  ∀ digest ∈ minted srv (s, h.world), ∀ x ∈ h.past, digest ∉ minted srv x

theorem minted_of_set_up {user_id : Uuid} {x : Step Token × Committed} {secret : String}
    {digests : List String} (h : factor_event srv user_id x = .set_up secret digests) :
    minted srv x = digests := by
  obtain ⟨step, w⟩ := x
  cases step with
  | ocr env document_id engine => cases h
  | request env req =>
    simp only [factor_event] at h
    split at h
    next habout =>
      obtain ⟨credentials, route⟩ := req
      cases route <;> simp only [announced] at h
      case mfa_setup =>
        obtain ⟨_, rfl⟩ := FactorEvent.set_up.inj h
        simp only [minted, habout.1, if_true]
      case mfa_verify challenge_token code =>
        unfold code_event at h
        split at h <;> cases h
      case mfa_disable password code =>
        unfold code_event at h
        split at h <;> cases h
      case delete_own_account password mfa_code acknowledge =>
        cases mfa_code with
        | none => cases h
        | some code =>
          simp only [Option.map_some, Option.getD_some] at h
          unfold code_event at h
          split at h <;> cases h
      all_goals cases h
    next => cases h

/-- No digest is minted twice in the run. -/
theorem Reaches.minted_apart {h : History Token}
    (hr : Reaches srv (FreshDigests srv) History.start h) :
    h.past.Pairwise (fun x y => ∀ digest ∈ minted srv x, digest ∉ minted srv y) := by
  induction hr with
  | refl => exact .nil
  | step s _ hfresh ih =>
    exact List.pairwise_cons.mpr ⟨fun y hy digest hd => hfresh digest hd y hy, ih⟩

/-! ### The guarantee -/

/-- The step `x` of the run set up the enrolment that is on record for the account, and
    minted its codes. -/
structure SetUpBy (srv : Server Token) (h : History Token) (user_id : Uuid) (m : UserMfa)
    (later : List (Step Token × Committed)) (x : Step Token × Committed)
    (earlier : List (Step Token × Committed)) : Prop where
  split : h.past = later ++ x :: earlier
  event : factor_event srv user_id x = .set_up m.encrypted_secret (minted srv x)
  last : ∀ y ∈ later, (factor_event srv user_id y).sets_up = false
  ten : (minted srv x).length = recovery_code_count
  codes : (codes_of (h.world.db .recovery_code) user_id).map RecoveryCode.digest = minted srv x

/-- What holds of the second factor of an account. -/
structure RecoveryCodesKept (srv : Server Token) (h : History Token) (user_id : Uuid) : Prop where
  paired : (∃ c ∈ h.world.db .recovery_code, RecoveryCode.user_id c = user_id) ↔
    ∃ m ∈ h.world.db .user_mfa, UserMfa.user_id m = user_id
  current : ∀ m ∈ h.world.db .user_mfa, UserMfa.user_id m = user_id → ∃ later x earlier,
    SetUpBy srv h user_id m later x earlier ∧
      ∀ env, ((remaining_recovery_codes user_id).exec (perform schema run_ext)
        (h.world.begin env)).1 =
          .ok (recovery_code_count - later.countP (fun y => (factor_event srv user_id y).accepts))
  used : ∀ c ∈ h.world.db .recovery_code, RecoveryCode.user_id c = user_id →
    c.used_at.isSome = true → ∃ m ∈ h.world.db .user_mfa, UserMfa.user_id m = user_id ∧
      m.is_active = true
  counted : ∀ m ∈ h.world.db .user_mfa, UserMfa.user_id m = user_id → m.is_active = true →
    m.last_used_counter.isSome = true

theorem setUpBy_of_settled {h : History Token} {user_id : Uuid} {m : UserMfa}
    (hs : Settled (factor_events srv h user_id) (factor h.world.db user_id))
    (hm : m ∈ h.world.db .user_mfa) (howner : m.user_id = user_id) : ∃ later x earlier,
    SetUpBy srv h user_id m later x earlier ∧
      (unused (codes_of (h.world.db .recovery_code) user_id)).length +
        later.countP (fun y => (factor_event srv user_id y).accepts) = recovery_code_count := by
  obtain ⟨_, levents, eevents, hlast⟩ := hs.current m (mem_enrolments.mpr ⟨hm, howner⟩)
  obtain ⟨later, rest, hpast, rfl, hrest⟩ := List.map_eq_append_iff.mp hlast.split
  obtain ⟨x, earlier, rfl, hevent, rfl⟩ := List.map_eq_cons_iff.mp hrest
  have hminted := minted_of_set_up hevent
  refine ⟨later, x, earlier, ⟨hpast, ?_, fun y hy => ?_, ?_, hminted.symm⟩, ?_⟩
  · rw [hminted]
    exact hevent
  · exact hlast.last _ (List.mem_map_of_mem hy)
  · rw [hminted, List.length_map]
    exact hlast.ten
  · have hremaining := hlast.remaining
    rw [List.countP_map] at hremaining
    exact hremaining

theorem remaining_eq {s : Session} {user_id : Uuid} :
    ((remaining_recovery_codes user_id).exec (perform schema run_ext) s).1 =
      .ok (unused (codes_of (s.db .recovery_code) user_id)).length := by
  have hwp : wps (remaining_recovery_codes user_id)
      (fun r _ => r = .ok (unused (codes_of (s.db .recovery_code) user_id)).length) s := by
    refine wps_select_bind ((wp_pure _).mpr ?_)
    unfold unused codes_of
    rw [List.filter_filter]
    refine congrArg (fun rows : List RecoveryCode => Except.ok rows.length) ?_
    exact List.filter_congr fun c _ => Bool.and_comm _ _
  unfold wps wp at hwp
  exact hwp

theorem Settled.kept {h : History Token} {user_id : Uuid}
    (hs : Settled (factor_events srv h user_id) (factor h.world.db user_id)) :
    RecoveryCodesKept srv h user_id where
  paired := by
    constructor
    · rintro ⟨c, hc, howner⟩
      have hmem : c ∈ codes_of (h.world.db .recovery_code) user_id := mem_codes.mpr ⟨hc, howner⟩
      cases henrolment : enrolments_of (h.world.db .user_mfa) user_id with
      | nil =>
        have hnil : codes_of (h.world.db .recovery_code) user_id = [] := hs.paired henrolment
        rw [hnil] at hmem
        cases hmem
      | cons m rest =>
        have hm : m ∈ enrolments_of (h.world.db .user_mfa) user_id := by
          rw [henrolment]
          exact List.mem_cons_self
        exact ⟨m, mem_enrolments.mp hm⟩
    · -- a setup leaves ten codes, and a use deletes none
      rintro ⟨m, hm, howner⟩
      obtain ⟨_, later, earlier, hlast⟩ := hs.current m (mem_enrolments.mpr ⟨hm, howner⟩)
      have hten := hlast.ten
      have hpos : 0 < (codes_of (h.world.db .recovery_code) user_id).length := by
        show 0 < (factor h.world.db user_id).codes.length
        rw [hten]
        decide
      obtain ⟨c, hc⟩ := List.exists_mem_of_length_pos hpos
      exact ⟨c, mem_codes.mp hc⟩
  current := by
    intro m hm howner
    obtain ⟨later, x, earlier, hset, hremaining⟩ := setUpBy_of_settled hs hm howner
    refine ⟨later, x, earlier, hset, fun env => ?_⟩
    rw [remaining_eq, Committed.begin_db]
    have hleft : (unused (codes_of (h.world.db .recovery_code) user_id)).length =
        recovery_code_count - later.countP (fun y => (factor_event srv user_id y).accepts) := by
      omega
    rw [hleft]
  used := by
    intro c hc howner hused
    have hmem : c ∈ (factor h.world.db user_id).codes := mem_codes.mpr ⟨hc, howner⟩
    cases henrolment : enrolments_of (h.world.db .user_mfa) user_id with
    | nil =>
      rw [hs.paired henrolment] at hmem
      cases hmem
    | cons m rest =>
      have hm : m ∈ enrolments_of (h.world.db .user_mfa) user_id := by
        rw [henrolment]
        exact List.mem_cons_self
      exact ⟨m, (mem_enrolments.mp hm).1, (mem_enrolments.mp hm).2, hs.used c hmem hused m hm⟩
  counted := fun m hm howner hact => hs.counted m (mem_enrolments.mpr ⟨hm, howner⟩) hact

/-- **Inversion.** A code that is accepted is on record, unused, beside an active enrolment. -/
theorem FactorStep.accepted {f f' : Factor} {digest : String}
    (h : FactorStep f (.accepted digest) f') : ∃ m ∈ f.enrolment, m.is_active = true ∧
      digest ∈ f.codes.map RecoveryCode.digest := by
  generalize he : FactorEvent.accepted digest = e at h
  cases h with
  | use m before after c now active hunused =>
    obtain rfl := FactorEvent.accepted.inj he
    exact ⟨m, List.mem_singleton_self m, active, by simp⟩
  | drop_by_code m codes c active mem hunused =>
    obtain rfl := FactorEvent.accepted.inj he
    exact ⟨m, List.mem_singleton_self m, active, List.mem_map_of_mem mem⟩
  | stay => cases he
  | set_up => cases he
  | confirm => cases he
  | count => cases he
  | drop => cases he

/-- **Recovery codes live and die with their enrolment.** In every run whose enrolments mint
    digests that no earlier one has minted, every account keeps what `RecoveryCodesKept`
    says; and a recovery code that the next step accepts was minted by the enrolment on
    record, which is active, and by no other step of the run. -/
theorem recovery_codes_kept {h : History Token}
    (hr : Reaches srv (FreshDigests srv) History.start h) :
    (∀ user_id, RecoveryCodesKept srv h user_id) ∧
      ∀ s user_id digest, factor_event srv user_id (s, h.world) = .accepted digest →
        ∃ m ∈ h.world.db .user_mfa, UserMfa.user_id m = user_id ∧ m.is_active = true ∧
          ∃ later x earlier, SetUpBy srv h user_id m later x earlier ∧ digest ∈ minted srv x ∧
            ∀ y ∈ later ++ earlier, digest ∉ minted srv y := by
  refine ⟨fun user_id => (hr.settled user_id).kept, fun s user_id digest haccepted => ?_⟩
  have hstep : FactorStep (factor h.world.db user_id) (factor_event srv user_id (s, h.world))
      (factor (s.run srv h.world).db user_id) := factor_step s hr.consistent user_id
  rw [haccepted] at hstep
  obtain ⟨m, hm, hactive, hdigest⟩ := hstep.accepted
  obtain ⟨hmem, howner⟩ := mem_enrolments.mp hm
  obtain ⟨later, x, earlier, hset, _⟩ := setUpBy_of_settled (hr.settled user_id) hmem howner
  have hminted : digest ∈ minted srv x := by
    rw [← hset.codes]
    exact hdigest
  -- no other setup has minted this digest, earlier or later
  have hapart := hr.minted_apart
  rw [hset.split, List.pairwise_append] at hapart
  obtain ⟨_, hafter, hcross⟩ := hapart
  refine ⟨m, hmem, howner, hactive, later, x, earlier, hset, hminted, fun y hy hother => ?_⟩
  rcases List.mem_append.mp hy with hlater | hearlier
  · exact hcross y hlater x List.mem_cons_self digest hother hminted
  · exact (List.pairwise_cons.mp hafter).1 y hearlier digest hminted hother

/-! ### A run with one enrolment -/

/-- The digests a line may mint. -/
def drawn (l : Sample.Line) : List String :=
  match l.req.route with
  | .mfa_setup => minted_digests Sample.server (Sample.env l.serial l.now)
  | _ => []

theorem drawn_of_minted {l : Sample.Line} {w : Committed} {digest : String}
    (h : digest ∈ minted Sample.server (l.step, w)) : digest ∈ drawn l := by
  obtain ⟨serial, now, credentials, route⟩ := l
  cases route
  case mfa_setup =>
    simp only [Sample.Line.step, minted] at h
    split at h
    · exact h
    · cases h
  all_goals cases h

theorem mem_past_play {ls : List Sample.Line} {x : Step Payload × Committed}
    (h : x ∈ (Sample.play ls).past) : ∃ l ∈ ls, ∃ w, x = (l.step, w) := by
  induction ls with
  | nil => cases h
  | cons l earlier ih =>
    rcases List.mem_cons.mp h with rfl | hold
    · exact ⟨l, List.mem_cons_self, _, rfl⟩
    · obtain ⟨l', hl', w, rfl⟩ := ih hold
      exact ⟨l', List.mem_cons_of_mem l hl', w, rfl⟩

/-- The decidable form of `FreshDigests`, line by line. -/
def digests_fresh : List Sample.Line → Bool
  | [] => true
  | l :: earlier => digests_fresh earlier &&
      (drawn l).all (fun digest => earlier.all (fun l' => !(drawn l').contains digest))

theorem reaches_of_digests_fresh {ls : List Sample.Line} (h : digests_fresh ls = true) :
    Reaches Sample.server (FreshDigests Sample.server) .start (Sample.play ls) := by
  induction ls with
  | nil => exact .refl
  | cons l earlier ih =>
    simp only [digests_fresh, Bool.and_eq_true] at h
    refine .step l.step (ih h.1) fun digest hd x hx hin => ?_
    obtain ⟨l', hl', w, rfl⟩ := mem_past_play hx
    have hno := List.all_eq_true.mp (List.all_eq_true.mp h.2 digest (drawn_of_minted hd)) l' hl'
    simp [drawn_of_minted hin] at hno

/-- An account sets up and confirms. -/
def enrolled_script : List Sample.Line :=
  [⟨4, 120 * second, ⟨some (access_claims 4096#128 8192#128 (101 * second)), .mfa_confirm "100004"⟩⟩,
    ⟨3, 102 * second, ⟨some (access_claims 4096#128 8192#128 (101 * second)), .mfa_setup⟩⟩,
    ⟨2, 101 * second, ⟨none, .login "a@x.org" "correct horse"⟩⟩,
    ⟨1, 100 * second, ⟨none, .register "a@x.org" "correct horse" none⟩⟩]

def spare_code : String := "10000-00000-00000-00303"

/-- It then signs in with one of its codes. -/
def signed_in_by_code : Sample.Line :=
  ⟨5, 200 * second, ⟨none, .mfa_verify (challenge_claims 4096#128 (150 * second)) spare_code⟩⟩

theorem spare_code_kept :
    (∀ user_id, RecoveryCodesKept Sample.server (Sample.play enrolled_script) user_id) ∧
      ∃ m ∈ (Sample.play enrolled_script).world.db .user_mfa, UserMfa.user_id m = 4096#128 ∧
        m.is_active = true ∧ ∃ later x earlier,
          SetUpBy Sample.server (Sample.play enrolled_script) 4096#128 m later x earlier ∧
            hash_recovery_code Sample.server spare_code ∈ minted Sample.server x ∧
              ∀ y ∈ later ++ earlier,
                hash_recovery_code Sample.server spare_code ∉ minted Sample.server y := by
  have hfresh : digests_fresh enrolled_script = true := by decide +kernel
  obtain ⟨hkept, haccepted⟩ := recovery_codes_kept (reaches_of_digests_fresh hfresh)
  refine ⟨hkept, haccepted signed_in_by_code.step 4096#128 _ ?_⟩
  decide +kernel

end CounselReady
