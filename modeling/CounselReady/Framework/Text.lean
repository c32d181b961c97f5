import Mathlib.Data.List.TakeWhile

/-! # Texts

    What trimming a list at both ends leaves of it, what holds of every ASCII
    character, and that the UTF-8 bytes of a text determine it.
-/

namespace Framework

/-! ### Trimming -/

section trim
variable {α : Type} {p q : α → Bool} {l before after : List α}

/-- Without the elements at either end that satisfy `p`. -/
def trim (p : α → Bool) (l : List α) : List α := ((l.dropWhile p).reverse.dropWhile p).reverse

theorem mem_of_mem_trim {a : α} (h : a ∈ trim p l) : a ∈ l := by
  have hinner := (List.dropWhile_sublist p).mem (List.mem_reverse.mp h)
  exact (List.dropWhile_sublist p).mem (List.mem_reverse.mp hinner)

/-- What surrounds the list is trimmed away. -/
theorem trim_surrounded (hbefore : ∀ a ∈ before, p a = true) (hafter : ∀ a ∈ after, p a = true) :
    trim p (before ++ l ++ after) = trim p l := by
  unfold trim
  rw [List.append_assoc, List.dropWhile_append_of_pos hbefore, List.dropWhile_append]
  have hleft : ∀ a ∈ after.reverse, p a = true := fun a ha => hafter a (List.mem_reverse.mp ha)
  by_cases hempty : (l.dropWhile p).isEmpty = true
  · -- nothing of the list is left, and nothing of what follows it
    have hnone : after.dropWhile p = [] := List.dropWhile_eq_nil_iff.mpr hafter
    rw [if_pos hempty, hnone, List.isEmpty_iff.mp hempty]
  · rw [if_neg hempty, List.reverse_append, List.dropWhile_append_of_pos hleft]

theorem filter_dropWhile (h : ∀ a ∈ l, p a = true → q a = false) :
    (l.dropWhile p).filter q = l.filter q := by
  induction l with
  | nil => rfl
  | cons a l ih =>
    by_cases hp : p a = true
    · have hq := h a List.mem_cons_self hp
      rw [List.dropWhile_cons_of_pos hp, List.filter_cons_of_neg (by simp [hq])]
      exact ih fun b hb => h b (List.mem_cons_of_mem _ hb)
    · rw [List.dropWhile_cons_of_neg hp]

/-- A filter that takes nothing trimmed does not see the trimming. -/
theorem filter_trim (h : ∀ a ∈ l, p a = true → q a = false) :
    (trim p l).filter q = l.filter q := by
  have hinner : ∀ a ∈ (l.dropWhile p).reverse, p a = true → q a = false :=
    fun a ha => h a ((List.dropWhile_sublist p).mem (List.mem_reverse.mp ha))
  unfold trim
  rw [List.filter_reverse, filter_dropWhile hinner, List.filter_reverse, List.reverse_reverse,
    filter_dropWhile h]

end trim

/-! ### Characters -/

/-- Something that holds of the first 128 characters holds of every ASCII character. -/
theorem ascii_cases {P : Char → Prop} (h : ∀ n < 128, P (Char.ofNat n)) :
    ∀ c : Char, c.toNat < 128 → P c := by
  intro c hc
  have hcase := h c.toNat hc
  rwa [Char.ofNat_toNat] at hcase

/-! ### Bytes -/

theorem bytes_from (bytes : ByteArray) (i : Nat) (read : List UInt8) :
    ByteArray.toList.loop bytes i read = read.reverse ++ bytes.data.toList.drop i := by
  fun_induction ByteArray.toList.loop bytes i read with
  | case1 i read hlt ih =>
    have hin : i < bytes.data.toList.length := by simpa using hlt
    have hbyte : bytes.get! i = bytes.data.toList[i] := by
      show bytes.data[i]! = _
      rw [getElem!_pos bytes.data i hlt, Array.getElem_toList]
    rw [ih, hbyte, List.reverse_cons, List.append_assoc, List.drop_eq_getElem_cons hin]
    rfl
  | case2 i read hge =>
    have hout : bytes.data.toList.length ≤ i := by simpa using hge
    rw [List.drop_eq_nil_of_le hout, List.append_nil]

theorem toList_bytes (bytes : ByteArray) : bytes.toList = bytes.data.toList := by
  show ByteArray.toList.loop bytes 0 [] = _
  rw [bytes_from, List.reverse_nil, List.nil_append, List.drop_zero]

/-- The encoding is injective. -/
theorem utf8_inj {s t : String} (h : s.toUTF8.toList = t.toUTF8.toList) : s = t := by
  rw [toList_bytes, toList_bytes] at h
  have hdata := Array.toList_inj.mp h
  exact String.toByteArray_inj.mp (ByteArray.ext hdata)

end Framework
