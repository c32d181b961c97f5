import CounselReady.Framework.Ordering
import CounselReady.Framework.Run
import Mathlib.Data.List.Forall2

/-! # Growth

    A list that is only added to: at its end (`GrownAtEnd`), or anywhere
    (Mathlib's `List.SublistForall₂`). What is there stays, up to a relation `R`
    that says how an element may change.

    `Run.carried` is the rule for what is true from some step of a run on.
-/

namespace Framework

/-! ### Lists -/

section lists
variable {α β : Type} {R : α → α → Prop} {xs ys zs : List α}

/-- `ys` starts with the elements of `xs`, each changed as `R` allows. -/
inductive GrownAtEnd (R : α → α → Prop) : List α → List α → Prop where
  | nil (added : List α) : GrownAtEnd R [] added
  | cons {x y : α} {xs ys : List α} :
      R x y → GrownAtEnd R xs ys → GrownAtEnd R (x :: xs) (y :: ys)

theorem GrownAtEnd.append (hrefl : ∀ x, R x x) (xs added : List α) :
    GrownAtEnd R xs (xs ++ added) := by
  induction xs with
  | nil => exact .nil added
  | cons x xs ih => exact .cons (hrefl x) ih

theorem GrownAtEnd.refl (hrefl : ∀ x, R x x) (xs : List α) : GrownAtEnd R xs xs := by
  have h := GrownAtEnd.append hrefl xs []
  rwa [List.append_nil] at h

/-- Every element is changed in its place. -/
theorem GrownAtEnd.of_map {f : α → α} (h : ∀ x ∈ xs, R x (f x)) : GrownAtEnd R xs (xs.map f) := by
  induction xs with
  | nil => exact .nil _
  | cons x xs ih =>
    have hrest := ih fun y hy => h y (List.mem_cons_of_mem _ hy)
    exact .cons (h x List.mem_cons_self) hrest

theorem GrownAtEnd.trans (htrans : ∀ x y z, R x y → R y z → R x z) (h₁ : GrownAtEnd R xs ys)
    (h₂ : GrownAtEnd R ys zs) : GrownAtEnd R xs zs := by
  induction h₁ generalizing zs with
  | nil added => exact .nil zs
  | cons hxy _ ih =>
    cases h₂ with
    | cons hyz hrest => exact .cons (htrans _ _ _ hxy hyz) (ih hrest)

theorem GrownAtEnd.mem (h : GrownAtEnd R xs ys) {x : α} (hx : x ∈ xs) : ∃ y ∈ ys, R x y := by
  induction h with
  | nil added => cases hx
  | @cons a b _ _ hab _ ih =>
    rcases List.mem_cons.mp hx with rfl | hx
    · exact ⟨b, List.mem_cons_self, hab⟩
    · obtain ⟨y, hy, hxy⟩ := ih hx
      exact ⟨y, List.mem_cons_of_mem _ hy, hxy⟩

theorem GrownAtEnd.map {R' : β → β → Prop} {f : α → β} (h : GrownAtEnd R xs ys)
    (hf : ∀ x y, R x y → R' (f x) (f y)) : GrownAtEnd R' (xs.map f) (ys.map f) := by
  induction h with
  | nil added => exact .nil _
  | cons hxy _ ih => exact .cons (hf _ _ hxy) ih

theorem exists_of_among (h : List.SublistForall₂ R xs ys) {x : α} (hx : x ∈ xs) :
    ∃ y ∈ ys, R x y := by
  induction h with
  | nil => cases hx
  | @cons a b _ _ hab _ ih =>
    rcases List.mem_cons.mp hx with rfl | hx
    · exact ⟨b, List.mem_cons_self, hab⟩
    · obtain ⟨y, hy, hxy⟩ := ih hx
      exact ⟨y, List.mem_cons_of_mem _ hy, hxy⟩
  | cons_right _ ih =>
    obtain ⟨y, hy, hxy⟩ := ih hx
    exact ⟨y, List.mem_cons_of_mem _ hy, hxy⟩

theorem sublist_insert_last {le : α → α → Bool} (x : α) (l : List α) :
    l.Sublist (insert_last le x l) := by
  induction l with
  | nil => exact List.nil_sublist _
  | cons b l ih =>
    by_cases hb : le b x = true
    · rw [insert_last, if_pos hb]
      exact ih.cons_cons b
    · rw [insert_last, if_neg hb]
      exact List.sublist_cons_self x (b :: l)

end lists

/-! ### Runs -/

section runs
variable {State Label : Type} {step : State → Label → State → Prop}
  {may : List (Label × State) → State → Label → Prop} {s₀ s₁ s : State} {l : Label}
  {between earlier : List (Label × State)}

/-- **Carry rule.** What a step makes true, and every later one keeps, is true. -/
theorem Run.carried {P : State → Prop} (hr : Run step may s₀ (between ++ (l, s₁) :: earlier) s)
    (hfirst : ∀ s', Run step may s₀ earlier s₁ → may earlier s₁ l → step s₁ l s' → P s')
    (hkeep : ∀ later l' s₂ mid s', between = later ++ (l', s₂) :: mid →
      Run step may s₀ (mid ++ (l, s₁) :: earlier) s₂ → may (mid ++ (l, s₁) :: earlier) s₂ l' →
      step s₂ l' s' → P s₂ → P s') : P s := by
  generalize hpast : between ++ (l, s₁) :: earlier = past at hr
  induction hr generalizing between with
  | start => simp at hpast
  | next l' hr hmay hs ih =>
    cases between with
    | nil =>
      obtain ⟨hhead, rfl⟩ := List.cons.inj hpast
      obtain ⟨rfl, rfl⟩ := Prod.mk.inj hhead
      exact hfirst _ hr hmay hs
    | cons e mid =>
      obtain ⟨rfl, rfl⟩ := List.cons.inj hpast
      have hP := ih (fun later l'' s₂ mid' s' hmid => hkeep (_ :: later) l'' s₂ mid' s'
        (congrArg (List.cons _) hmid)) rfl
      exact hkeep [] _ _ _ _ rfl hr hmay hs hP

end runs

end Framework
