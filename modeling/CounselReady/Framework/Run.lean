import Mathlib.Data.List.Basic

/-! # Runs of a Labelled System

    A system takes steps, each under a label. A run is known by its past: the
    labels so far, each with the state it found. What a step may assume can
    depend on that past.

    `Run.invariant` is the rule: what holds at the start and is kept by every
    step of a run holds of the run, past included.
-/

namespace Framework

variable {State Label : Type}

/-- The runs from `s₀`, latest step first, whose steps are all allowed by `may`. -/
inductive Run (step : State → Label → State → Prop)
    (may : List (Label × State) → State → Label → Prop) (s₀ : State) :
    List (Label × State) → State → Prop where
  | start : Run step may s₀ [] s₀
  | next {past : List (Label × State)} {s s' : State} (l : Label) :
      Run step may s₀ past s → may past s l → step s l s' →
      Run step may s₀ ((l, s) :: past) s'

/-- No condition on the steps. -/
def unrestricted : List (Label × State) → State → Label → Prop := fun _ _ _ => True

variable {step : State → Label → State → Prop}
  {may may' : List (Label × State) → State → Label → Prop} {s₀ s : State}
  {past : List (Label × State)}

/-- **Invariant rule.** What holds at the start, and is kept by every move that may be made,
    holds along every run. -/
theorem Run.invariant {I : List (Label × State) → State → Prop} (hr : Run step may s₀ past s)
    (h0 : I [] s₀)
    (hstep : ∀ past s l s', Run step may s₀ past s → I past s → may past s l → step s l s' →
      I ((l, s) :: past) s') : I past s := by
  induction hr with
  | start => exact h0
  | next l hr hmay hs ih => exact hstep _ _ l _ hr ih hmay hs

/-- A run passes through every state of its past, by an allowed step. -/
theorem Run.split {later earlier : List (Label × State)} {l : Label} {s₁ : State}
    (hr : Run step may s₀ (later ++ (l, s₁) :: earlier) s) :
    Run step may s₀ earlier s₁ ∧ may earlier s₁ l := by
  generalize hpast : later ++ (l, s₁) :: earlier = past at hr
  induction hr generalizing later with
  | start => simp at hpast
  | next l' hr hl _ ih =>
    cases later with
    | nil =>
      obtain ⟨hhead, rfl⟩ := List.cons.inj hpast
      obtain ⟨rfl, rfl⟩ := Prod.mk.inj hhead
      exact ⟨hr, hl⟩
    | cons e later =>
      obtain ⟨_, htail⟩ := List.cons.inj hpast
      exact ih htail

theorem Run.mono (hr : Run step may s₀ past s)
    (hmay : ∀ past s l, may past s l → may' past s l) : Run step may' s₀ past s := by
  induction hr with
  | start => exact .start
  | next l _ hl hs ih => exact .next l ih (hmay _ _ l hl) hs

/-- **Since.** What a step starts, ends or leaves alone holds now when a step of the past has
    started it and none has ended it since. -/
theorem Run.since {P : State → Prop} {starts ends : Label → Prop}
    (hr : Run step may s₀ past s) (h0 : ¬ P s₀)
    (hstep : ∀ s l s', step s l s' → (P s' ↔ starts l ∨ (P s ∧ ¬ ends l))) :
    P s ↔ ∃ later p earlier, past = later ++ p :: earlier ∧ starts p.1 ∧
      ∀ q ∈ later, ¬ ends q.1 := by
  induction hr with
  | start =>
    refine ⟨fun h => absurd h h0, ?_⟩
    rintro ⟨later, p, earlier, hpast, _⟩
    simp at hpast
  | next l hr hmay hs ih =>
    rw [hstep _ _ _ hs, ih]
    constructor
    · rintro (hstarts | ⟨⟨later, p, earlier, rfl, hstarts, hnone⟩, hends⟩)
      · exact ⟨[], _, _, rfl, hstarts, fun q hq => absurd hq List.not_mem_nil⟩
      · exact ⟨_ :: later, p, earlier, rfl, hstarts, List.forall_mem_cons.mpr ⟨hends, hnone⟩⟩
    · rintro ⟨later, p, earlier, hpast, hstarts, hnone⟩
      cases later with
      | nil =>
        -- it is the last step that starts it
        obtain ⟨rfl, _⟩ := List.cons.inj hpast
        exact .inl hstarts
      | cons q later =>
        obtain ⟨rfl, rfl⟩ := List.cons.inj hpast
        obtain ⟨hends, hrest⟩ := List.forall_mem_cons.mp hnone
        exact .inr ⟨⟨later, p, earlier, rfl, hstarts, hrest⟩, hends⟩

/-! ### Runs of a script -/

/-- The run of a list of labels, latest first, when each step has one outcome. -/
def trail (next : Label → State → State) (s₀ : State) : List Label → List (Label × State) × State
  | [] => ([], s₀)
  | l :: earlier =>
      ((l, (trail next s₀ earlier).2) :: (trail next s₀ earlier).1,
        next l (trail next s₀ earlier).2)

theorem run_trail (next : Label → State → State) (s₀ : State) (script : List Label) :
    Run (fun s l s' => s' = next l s) unrestricted s₀ (trail next s₀ script).1
      (trail next s₀ script).2 := by
  induction script with
  | nil => exact .start
  | cons l earlier ih => exact .next l ih trivial rfl

/-- A script, latest label first, as long as every step is allowed and possible. -/
def follow (next : State → Label → Option State) (allowed : State → Label → Bool) (s₀ : State) :
    List Label → Option State
  | [] => some s₀
  | l :: earlier =>
      (follow next allowed s₀ earlier).bind fun s => if allowed s l then next s l else none

theorem run_follow {next : State → Label → Option State} {allowed : State → Label → Bool}
    {script : List Label} {s : State} (h : follow next allowed s₀ script = some s) :
    ∃ past, Run (fun s l s' => next s l = some s') (fun _ s l => allowed s l = true) s₀ past s := by
  induction script generalizing s with
  | nil =>
    obtain rfl := Option.some.inj h
    exact ⟨[], .start⟩
  | cons l earlier ih =>
    obtain ⟨s₁, hearlier, hstep⟩ := Option.bind_eq_some_iff.mp h
    obtain ⟨past, hr⟩ := ih hearlier
    split at hstep
    · next hallowed => exact ⟨_, hr.next l hallowed hstep⟩
    · cases hstep

end Framework
