import CounselReady.Framework.Run

/-! # Simulation

    A system with a detailed state is explained by one with a plain state when
    the plain state can be read off the detailed one, and every step of the
    first shows what some step of the second does (`Simulates`). Then every
    run does (`Simulates.run`).
-/

namespace Framework

variable {S L A M : Type}

/-- What is read off the states, and what a step shows. `I` is what the detailed
    system's own invariants give. -/
structure Simulates (step : S → L → S → Prop) (may : List (L × S) → S → L → Prop)
    (I : List (L × S) → S → Prop) (abs : S → A) (shows : S → L → M → Prop)
    (does : A → M → A → Prop) : Prop where
  step : ∀ past s l s', I past s → may past s l → step s l s' →
    ∃ m, shows s l m ∧ does (abs s) m (abs s')

/-- The past of the plain system, beside that of the other. -/
def Explains (abs : S → A) (shows : S → L → M → Prop) (past : List (L × S))
    (plain : List (M × A)) : Prop :=
  List.Forall₂ (fun p q => shows p.2 p.1 q.1 ∧ q.2 = abs p.2) past plain

variable {step : S → L → S → Prop} {may : List (L × S) → S → L → Prop}
  {I : List (L × S) → S → Prop} {abs : S → A} {shows : S → L → M → Prop}
  {does : A → M → A → Prop} {past : List (L × S)} {s₀ s : S}

/-- **Run rule.** Step by step, the plain system does what the run shows. -/
theorem Simulates.run (h : Simulates step may I abs shows does) (hr : Run step may s₀ past s)
    (hI : ∀ past s, Run step may s₀ past s → I past s) :
    ∃ plain, Run does unrestricted (abs s₀) plain (abs s) ∧ Explains abs shows past plain := by
  induction hr with
  | start => exact ⟨[], .start, .nil⟩
  | next l hr hmay hs ih =>
    obtain ⟨plain, hplain, hexplains⟩ := ih
    obtain ⟨m, hshows, hdoes⟩ := h.step _ _ _ _ (hI _ _ hr) hmay hs
    exact ⟨_, hplain.next m trivial hdoes, .cons ⟨hshows, rfl⟩ hexplains⟩

end Framework
