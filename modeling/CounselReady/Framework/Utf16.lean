import Mathlib.Data.List.Basic

/-! # Code Points and UTF-16 Code Units

    A text as a sequence of code points, and as the code units that encode it.
    A code point above the Basic Multilingual Plane takes two units, so the two
    sequences are indexed differently from there on.
-/

namespace Framework

/-- Any code point, a lone surrogate included. -/
abbrev CodePoint := Fin 0x110000

abbrev CodeUnit := Nat

/-- Above the Basic Multilingual Plane. -/
def CodePoint.astral (c : CodePoint) : Bool := decide (0x10000 ≤ c.val)

def CodePoint.units (c : CodePoint) : List CodeUnit :=
  if c.astral then
    [0xD800 + (c.val - 0x10000) / 0x400, 0xDC00 + (c.val - 0x10000) % 0x400]
  else [c.val]

def utf16 (text : List CodePoint) : List CodeUnit := text.flatMap CodePoint.units

/-- How many code points of the text take two units. -/
def astral_count (text : List CodePoint) : Nat := text.countP CodePoint.astral

/-- `text[start:stop]`, for offsets that are not negative. -/
def slice {α : Type} (text : List α) (start stop : Nat) : List α :=
  (text.drop start).take (stop - start)

/-! ### Lengths -/

@[simp] theorem utf16_nil : utf16 [] = [] := rfl

@[simp] theorem utf16_cons (c : CodePoint) (text : List CodePoint) :
    utf16 (c :: text) = c.units ++ utf16 text := by
  simp [utf16]

@[simp] theorem utf16_append (a b : List CodePoint) : utf16 (a ++ b) = utf16 a ++ utf16 b := by
  simp [utf16]

theorem length_units (c : CodePoint) : c.units.length = if c.astral then 2 else 1 := by
  unfold CodePoint.units
  by_cases h : c.astral = true
  · simp [h]
  · simp [h]

theorem length_utf16 (text : List CodePoint) :
    (utf16 text).length = text.length + astral_count text := by
  unfold astral_count
  induction text with
  | nil => simp
  | cons c text ih =>
    rw [utf16_cons, List.length_append, length_units, ih, List.length_cons, List.countP_cons]
    by_cases h : c.astral = true
    · simp only [h, if_true]
      omega
    · simp only [h, if_false, Bool.false_eq_true]
      omega

/-! ### Offsets -/

/-- Leaving out code points is leaving out units, two for each astral one. -/
theorem utf16_drop (text : List CodePoint) (n : Nat) :
    utf16 (text.drop n) = (utf16 text).drop (n + astral_count (text.take n)) := by
  by_cases hn : n ≤ text.length
  · have hlen : (utf16 (text.take n)).length = n + astral_count (text.take n) := by
      rw [length_utf16, List.length_take]
      omega
    have hsplit : utf16 text = utf16 (text.take n) ++ utf16 (text.drop n) := by
      rw [← utf16_append, List.take_append_drop]
    rw [hsplit, ← hlen, List.drop_left]
  · have hall : text.take n = text := List.take_of_length_le (by omega)
    have hnone : text.drop n = [] := List.drop_eq_nil_of_le (by omega)
    have hlen := length_utf16 text
    rw [hall, hnone, utf16_nil, List.drop_eq_nil_of_le (by omega)]

/-- The first code points of a text are its first units, when these are all BMP. -/
theorem utf16_take {text : List CodePoint} {n : Nat}
    (h : (utf16 (text.take n)).length ≤ n) : utf16 (text.take n) = (utf16 text).take n := by
  have hlen := length_utf16 (text.take n)
  rw [List.length_take] at hlen
  have hsplit : utf16 text = utf16 (text.take n) ++ utf16 (text.drop n) := by
    rw [← utf16_append, List.take_append_drop]
  by_cases hn : n ≤ text.length
  · have hfull : (utf16 (text.take n)).length = n := by omega
    have hleft : (utf16 (text.take n) ++ utf16 (text.drop n)).take (utf16 (text.take n)).length =
        utf16 (text.take n) := List.take_left
    rw [hfull] at hleft
    rw [hsplit, hleft]
  · have hall : text.take n = text := List.take_of_length_le (by omega)
    rw [hall] at h ⊢
    exact (List.take_of_length_le h).symm

/-! ### Slices -/

/-- The offsets of a stretch of code points serve for the units too: it takes no more
    units than code points were asked for, and the units are the same when read from
    behind the `astral_count` units that the text before it has more than code points. -/
structure InStep (text : List CodePoint) (start stop : Nat) : Prop where
  narrow : (utf16 (slice text start stop)).length ≤ stop - start
  repeats : ∀ i, start ≤ i → i < stop →
    (utf16 text)[i]? = (utf16 text)[i + astral_count (text.take start)]?

/-- A text with no astral code point before the end of the stretch. -/
theorem InStep.of_plain {text : List CodePoint} {start stop : Nat} (hle : start ≤ stop)
    (h : astral_count (text.take stop) = 0) : InStep text start stop := by
  have hsplit : text.take stop = text.take start ++ slice text start stop := by
    have htake := List.take_add (l := text) (i := start) (j := stop - start)
    rw [Nat.add_sub_cancel' hle] at htake
    exact htake
  have hboth : astral_count (text.take start) = 0 ∧ astral_count (slice text start stop) = 0 := by
    unfold astral_count at h ⊢
    rw [hsplit, List.countP_append] at h
    omega
  refine ⟨?_, ?_⟩
  · rw [length_utf16, hboth.2]
    unfold slice
    rw [List.length_take]
    omega
  · intro i _ _
    rw [hboth.1, Nat.add_zero]

/-- **Slices agree exactly in step.** -/
theorem slice_utf16_iff {text : List CodePoint} {start stop : Nat} :
    slice (utf16 text) start stop = utf16 (slice text start stop) ↔ InStep text start stop := by
  have hquote : (utf16 (slice text start stop)).length ≤ stop - start →
      utf16 (slice text start stop) =
        ((utf16 text).drop (start + astral_count (text.take start))).take (stop - start) := by
    intro hnarrow
    unfold slice at hnarrow ⊢
    rw [utf16_take hnarrow, utf16_drop]
  constructor
  · intro heq
    have hnarrow : (utf16 (slice text start stop)).length ≤ stop - start := by
      rw [← heq]
      unfold slice
      rw [List.length_take]
      omega
    refine ⟨hnarrow, ?_⟩
    intro i hlow hhigh
    rw [hquote hnarrow] at heq
    have hat := congrArg (fun l : List CodeUnit => l[i - start]?) heq
    unfold slice at hat
    simp only [List.getElem?_take, List.getElem?_drop] at hat
    rw [if_pos (by omega), if_pos (by omega)] at hat
    have hi : start + (i - start) = i := by omega
    have hj : start + astral_count (text.take start) + (i - start) =
        i + astral_count (text.take start) := by omega
    rwa [hi, hj] at hat
  · rintro ⟨hnarrow, hrepeats⟩
    rw [hquote hnarrow]
    unfold slice
    refine List.ext_getElem? fun i => ?_
    rw [List.getElem?_take, List.getElem?_take, List.getElem?_drop, List.getElem?_drop]
    by_cases hi : i < stop - start
    · rw [if_pos hi, if_pos hi, hrepeats (start + i) (by omega) (by omega)]
      congr 1
      omega
    · rw [if_neg hi, if_neg hi]

end Framework
