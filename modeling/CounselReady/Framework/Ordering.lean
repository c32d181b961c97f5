import Mathlib.Data.List.Sort

/-! # Newcomers to a Sorted List

    An insertion sort is stable, so a row that is met last goes behind every row
    the key does not tell it apart from.
-/

namespace Framework

variable {α β : Type} {le : α → α → Bool}

/-- The place of a newcomer: behind all that come before it and all it ties with. -/
def insert_last (le : α → α → Bool) (x : α) : List α → List α
  | [] => [x]
  | b :: l => if le b x then b :: insert_last le x l else x :: b :: l

/-- One insertion and the newcomer's do not get in each other's way. -/
theorem orderedInsert_insert_last (htotal : ∀ a b, le a b = true ∨ le b a = true)
    (htrans : ∀ a b c, le a b = true → le b c = true → le a c = true) (a x : α) (l : List α) :
    (insert_last le x l).orderedInsert (fun a b => le a b = true) a =
      insert_last le x (l.orderedInsert (fun a b => le a b = true) a) := by
  induction l with
  | nil =>
    by_cases hax : le a x = true <;> simp [insert_last, List.orderedInsert, hax]
  | cons b l ih =>
    by_cases hbx : le b x = true
    · by_cases hab : le a b = true
      · -- before both, so before the newcomer
        have hax : le a x = true := htrans a b x hab hbx
        simp [insert_last, List.orderedInsert, hbx, hab, hax]
      · simp [insert_last, List.orderedInsert, hbx, hab, ih]
    · by_cases hab : le a b = true
      · by_cases hax : le a x = true <;>
          simp [insert_last, List.orderedInsert, hbx, hab, hax]
      · -- behind `b`, which is behind the newcomer
        have hba : le b a = true := (htotal a b).resolve_left hab
        have hax : ¬ le a x = true := fun hax => hbx (htrans b a x hba hax)
        simp [insert_last, List.orderedInsert, hbx, hab, hax]

/-- **Stability.** A sort with one more row at the end is the sort with a newcomer. -/
theorem insertionSort_concat (htotal : ∀ a b, le a b = true ∨ le b a = true)
    (htrans : ∀ a b c, le a b = true → le b c = true → le a c = true) (l : List α) (x : α) :
    (l ++ [x]).insertionSort (fun a b => le a b = true) =
      insert_last le x (l.insertionSort (fun a b => le a b = true)) := by
  induction l with
  | nil => rfl
  | cons a l ih =>
    rw [List.cons_append, List.insertionSort_cons, List.insertionSort_cons, ih]
    exact orderedInsert_insert_last htotal htrans a x _

/-- Behind all there is. -/
theorem insert_last_of_le {x : α} {l : List α} (h : ∀ b ∈ l, le b x = true) :
    insert_last le x l = l ++ [x] := by
  induction l with
  | nil => rfl
  | cons b l ih =>
    have hb : le b x = true := h b List.mem_cons_self
    rw [insert_last, if_pos hb, ih fun b' hb' => h b' (List.mem_cons_of_mem _ hb')]
    rfl

theorem mem_insert_last {x a : α} {l : List α} : a ∈ insert_last le x l ↔ a = x ∨ a ∈ l := by
  induction l with
  | nil => simp [insert_last]
  | cons b l ih =>
    by_cases hb : le b x = true
    · simp only [insert_last, hb, if_true, List.mem_cons, ih]
      tauto
    · simp [insert_last, hb]

/-- A place is kept by what keeps the comparisons with the newcomer. -/
theorem map_insert_last {le' : β → β → Bool} {f : α → β} {x : α} {l : List α}
    (h : ∀ b ∈ l, le b x = le' (f b) (f x)) :
    (insert_last le x l).map f = insert_last le' (f x) (l.map f) := by
  induction l with
  | nil => rfl
  | cons b l ih =>
    have hb := h b List.mem_cons_self
    have hl := ih fun b' hb' => h b' (List.mem_cons_of_mem _ hb')
    by_cases hle : le b x = true
    · simp only [insert_last, hle, if_true, List.map_cons, hl, ← hb]
    · simp [insert_last, hle, ← hb]

end Framework
