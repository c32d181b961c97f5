import CounselReady.Specs.Upload

/-! # The Bounded Reader

    An upload is read chunk by chunk, and the reading stops as soon as there is too
    much of it. What comes of it depends on the bytes alone, not on the chunks they
    come in; and of a stream that never ends, no more is pulled than it takes.

    * `read_turns_within`: up to the cap the loop collects what it pulls.
    * `bounded_reader`: the result and the number of chunks pulled, for every stream.
    * `read_bounded_stream`: the reader of a finite list is the same loop.
-/

namespace CounselReady

open Framework Handler

variable {chunks other : Chunks} {max_bytes n : Nat}

/-! ### Streams -/

/-- The bytes of the first `n` chunks. -/
def Chunks.first_bytes (chunks : Chunks) : Nat → Bytes
  | 0 => []
  | n + 1 => chunks.first_bytes n ++ (chunks.pull n).getD []

def Chunks.of_list (chunks : List Bytes) : Chunks where
  pull n := chunks[n]?
  ended n h := by
    rw [List.getElem?_eq_none_iff] at h ⊢
    omega

/-- There are `n` chunks. -/
def Chunks.Stops (chunks : Chunks) (n : Nat) : Prop :=
  (∀ i < n, chunks.pull i ≠ none) ∧ chunks.pull n = none

/-- The total passes the cap with chunk number `n`, and not before. -/
def Chunks.Crosses (chunks : Chunks) (max_bytes n : Nat) : Prop :=
  (chunks.first_bytes n).length ≤ max_bytes ∧ max_bytes < (chunks.first_bytes (n + 1)).length

/-- The bytes of either are those of the other, as far as they go. -/
def SameBytes (chunks other : Chunks) : Prop :=
  (∀ n, ∃ m, chunks.first_bytes n <+: other.first_bytes m) ∧
    ∀ n, ∃ m, other.first_bytes n <+: chunks.first_bytes m

theorem SameBytes.symm (h : SameBytes chunks other) : SameBytes other chunks := ⟨h.2, h.1⟩

namespace Chunks

theorem first_bytes_extend {m : Nat} (h : n ≤ m) :
    chunks.first_bytes n <+: chunks.first_bytes m := by
  induction h with
  | refl => exact List.prefix_refl _
  | step h ih => exact ih.trans (List.prefix_append _ _)

theorem first_bytes_length (chunks : Chunks) {m : Nat} (h : n ≤ m) :
    (chunks.first_bytes n).length ≤ (chunks.first_bytes m).length :=
  (first_bytes_extend h).length_le

/-- Nothing comes after the end. -/
theorem pull_after {m : Nat} (hn : chunks.pull n = none) (h : n ≤ m) : chunks.pull m = none := by
  induction h with
  | refl => exact hn
  | step h ih => exact chunks.ended _ ih

theorem pulled_before {m : Nat} (hm : chunks.pull m ≠ none) (h : n ≤ m) : chunks.pull n ≠ none :=
  fun hn => hm (pull_after hn h)

theorem Stops.all_bytes {m : Nat} (h : chunks.Stops n) (hm : n ≤ m) :
    chunks.first_bytes m = chunks.first_bytes n := by
  induction hm with
  | refl => rfl
  | step hm ih =>
    have hend := pull_after h.2 hm
    show chunks.first_bytes _ ++ (chunks.pull _).getD [] = _
    rw [hend, ih]
    exact List.append_nil _

/-- No total is larger than that at the end. -/
theorem Stops.prefix_all (h : chunks.Stops n) (m : Nat) :
    chunks.first_bytes m <+: chunks.first_bytes n := by
  by_cases hm : m ≤ n
  · exact first_bytes_extend hm
  · have hsame := h.all_bytes (Nat.le_of_not_le hm)
    exact ⟨[], by rw [List.append_nil]; exact hsame⟩

/-- The chunk that passes the cap is there. -/
theorem Crosses.pulled (h : chunks.Crosses max_bytes n) : chunks.pull n ≠ none := by
  intro hn
  have hmore := h.2
  have hsame : chunks.first_bytes (n + 1) = chunks.first_bytes n := by
    show chunks.first_bytes n ++ (chunks.pull n).getD [] = _
    rw [hn]
    exact List.append_nil _
  rw [hsame] at hmore
  exact absurd hmore (Nat.not_lt.mpr h.1)

/-- A total over the cap passes it somewhere. -/
theorem crosses_of_over (h : max_bytes < (chunks.first_bytes n).length) :
    ∃ k, chunks.Crosses max_bytes k := by
  induction n with
  | zero => exact absurd h (Nat.not_lt_zero _)
  | succ n ih =>
    by_cases hover : max_bytes < (chunks.first_bytes n).length
    · exact ih hover
    · exact ⟨n, Nat.not_lt.mp hover, h⟩

/-- A stream passes the cap, or ends below it, or goes on below it for ever. -/
theorem three_ways (chunks : Chunks) (max_bytes : Nat) :
    (∃ n, chunks.Crosses max_bytes n) ∨
      (∃ n, chunks.Stops n ∧ (chunks.first_bytes n).length ≤ max_bytes) ∨
      ((∀ n, chunks.pull n ≠ none) ∧ ∀ n, (chunks.first_bytes n).length ≤ max_bytes) := by
  by_cases hover : ∃ n, max_bytes < (chunks.first_bytes n).length
  · obtain ⟨n, hn⟩ := hover
    exact .inl (crosses_of_over hn)
  · have hwithin : ∀ n, (chunks.first_bytes n).length ≤ max_bytes := by
      intro n
      by_contra hn
      exact hover ⟨n, Nat.not_le.mp hn⟩
    by_cases hend : ∃ n, chunks.pull n = none
    · obtain ⟨n, hn, hfirst⟩ := Nat.findX hend
      exact .inr (.inl ⟨n, ⟨hfirst, hn⟩, hwithin n⟩)
    · exact .inr (.inr ⟨fun n hn => hend ⟨n, hn⟩, hwithin⟩)

end Chunks

/-! ### The loop -/

/-- **Below the cap.** The loop has collected the first `n` chunks after `n` turns. -/
theorem read_turns_within (turns : Nat) (hpulled : ∀ i < n, chunks.pull i ≠ none)
    (hwithin : (chunks.first_bytes n).length ≤ max_bytes) :
    read_turns max_bytes chunks (n + turns) 0 [] =
      read_turns max_bytes chunks turns n (chunks.first_bytes n) := by
  induction n generalizing turns with
  | zero => rw [Nat.zero_add]; rfl
  | succ n ih =>
    have hbefore : (chunks.first_bytes n).length ≤ max_bytes :=
      Nat.le_trans (chunks.first_bytes_length (Nat.le_succ n)) hwithin
    have hlast := hpulled n (Nat.lt_succ_self n)
    rw [show n + 1 + turns = n + (turns + 1) by omega,
      ih (turns + 1) (fun i hi => hpulled i (Nat.lt_succ_of_lt hi)) hbefore]
    obtain ⟨chunk, hchunk⟩ := Option.ne_none_iff_exists'.mp hlast
    have hnext : chunks.first_bytes (n + 1) = chunks.first_bytes n ++ chunk := by
      show _ ++ (chunks.pull n).getD [] = _
      rw [hchunk]
      rfl
    rw [hnext] at hwithin ⊢
    rw [read_turns, hchunk]
    -- the chunk is within the cap, so the loop goes round again
    exact if_neg (Nat.not_lt.mpr hwithin)

theorem read_turns_crosses (h : chunks.Crosses max_bytes n) {turns : Nat} (hturns : n < turns) :
    read_turns max_bytes chunks turns 0 [] = some (.error .upload_too_large, n + 1) := by
  obtain ⟨rest, rfl⟩ : ∃ rest, turns = n + (rest + 1) := ⟨turns - n - 1, by omega⟩
  have hbefore : ∀ i < n, chunks.pull i ≠ none :=
    fun i hi => Chunks.pulled_before h.pulled (Nat.le_of_lt hi)
  rw [read_turns_within (rest + 1) hbefore h.1]
  obtain ⟨chunk, hchunk⟩ := Option.ne_none_iff_exists'.mp h.pulled
  have hover : max_bytes < (chunks.first_bytes n ++ chunk).length := by
    have hmore := h.2
    rw [Chunks.first_bytes, hchunk] at hmore
    exact hmore
  rw [read_turns, hchunk]
  exact if_pos hover

theorem read_turns_stops (h : chunks.Stops n)
    (hwithin : (chunks.first_bytes n).length ≤ max_bytes) {turns : Nat} (hturns : n < turns) :
    read_turns max_bytes chunks turns 0 [] =
      some (if (chunks.first_bytes n).isEmpty then .error .empty_upload
        else .ok (chunks.first_bytes n), n) := by
  obtain ⟨rest, rfl⟩ : ∃ rest, turns = n + (rest + 1) := ⟨turns - n - 1, by omega⟩
  rw [read_turns_within (rest + 1) h.1 hwithin, read_turns, h.2]

/-- No result yet. -/
theorem read_turns_unfinished {turns : Nat} (hpulled : ∀ i < turns, chunks.pull i ≠ none)
    (hwithin : (chunks.first_bytes turns).length ≤ max_bytes) :
    read_turns max_bytes chunks turns 0 [] = none := by
  have hall := read_turns_within 0 hpulled hwithin
  rw [Nat.add_zero] at hall
  rw [hall]
  rfl

/-- There are two ways to a result. -/
theorem read_turns_result {turns pulled : Nat} {r : Except Exc Bytes}
    (h : read_turns max_bytes chunks turns 0 [] = some (r, pulled)) :
    (∃ n, chunks.Crosses max_bytes n ∧ r = .error .upload_too_large) ∨
      ∃ n, chunks.Stops n ∧ (chunks.first_bytes n).length ≤ max_bytes ∧
        r = if (chunks.first_bytes n).isEmpty then .error .empty_upload
          else .ok (chunks.first_bytes n) := by
  rcases chunks.three_ways max_bytes with ⟨n, hcross⟩ | ⟨n, hstop, hwithin⟩ | ⟨hpulled, hwithin⟩
  · by_cases hturns : n < turns
    · rw [read_turns_crosses hcross hturns] at h
      cases h
      exact .inl ⟨n, hcross, rfl⟩
    · have hbefore : ∀ i < turns, chunks.pull i ≠ none :=
        fun i hi => Chunks.pulled_before hcross.pulled (by omega)
      have hlength := chunks.first_bytes_length (Nat.le_of_not_lt hturns)
      rw [read_turns_unfinished hbefore (Nat.le_trans hlength hcross.1)] at h
      cases h
  · by_cases hturns : n < turns
    · rw [read_turns_stops hstop hwithin hturns] at h
      cases h
      exact .inr ⟨_, hstop, hwithin, rfl⟩
    · have hbefore : ∀ i < turns, chunks.pull i ≠ none := fun i hi => hstop.1 i (by omega)
      have hlength := chunks.first_bytes_length (Nat.le_of_not_lt hturns)
      rw [read_turns_unfinished hbefore (Nat.le_trans hlength hwithin)] at h
      cases h
  · rw [read_turns_unfinished (fun i _ => hpulled i) (hwithin turns)] at h
    cases h

/-! ### Other chunks, same bytes -/

theorem SameBytes.crosses (h : SameBytes chunks other) (hcross : chunks.Crosses max_bytes n) :
    ∃ m, other.Crosses max_bytes m := by
  obtain ⟨m, hm⟩ := h.1 (n + 1)
  exact Chunks.crosses_of_over (Nat.lt_of_lt_of_le hcross.2 hm.length_le)

/-- One that passes the cap is not the same as one that ends below it. -/
theorem SameBytes.not_stops (h : SameBytes chunks other) (hcross : chunks.Crosses max_bytes n)
    {m : Nat} (hstop : other.Stops m) (hwithin : (other.first_bytes m).length ≤ max_bytes) :
    False := by
  obtain ⟨k, hk⟩ := h.crosses hcross
  have hlength := (hstop.prefix_all (k + 1)).length_le
  have hover := hk.2
  omega

theorem SameBytes.all_bytes (h : SameBytes chunks other) {m : Nat} (hn : chunks.Stops n)
    (hm : other.Stops m) : chunks.first_bytes n = other.first_bytes m := by
  obtain ⟨k, hk⟩ := h.1 n
  obtain ⟨j, hj⟩ := h.2 m
  have hforth := hk.trans (hm.prefix_all k)
  have hback := hj.trans (hn.prefix_all j)
  exact hforth.eq_of_length_le hback.length_le

theorem read_turns_same (h : SameBytes chunks other) {turns turns' pulled pulled' : Nat}
    {r r' : Except Exc Bytes} (hr : read_turns max_bytes chunks turns 0 [] = some (r, pulled))
    (hr' : read_turns max_bytes other turns' 0 [] = some (r', pulled')) : r = r' := by
  rcases read_turns_result hr with ⟨n, hcross, rfl⟩ | ⟨n, hstop, hwithin, rfl⟩
  · rcases read_turns_result hr' with ⟨m, _, rfl⟩ | ⟨m, hstop', hwithin', _⟩
    · rfl
    · exact absurd hstop' fun hstop' => h.not_stops hcross hstop' hwithin'
  · rcases read_turns_result hr' with ⟨m, hcross', _⟩ | ⟨m, hstop', _, rfl⟩
    · exact absurd hstop fun hstop => h.symm.not_stops hcross' hstop hwithin
    · rw [h.all_bytes hstop hstop']

/-! ### The reader -/

/-- A length is declared, and it is over the cap. -/
def DeclaredOver (max_bytes : Nat) (declared_length : Option Int) : Prop :=
  ∃ n, declared_length = some n ∧ (max_bytes : Int) < n

theorem read_stream_declared {declared : Option Int} (h : DeclaredOver max_bytes declared)
    (turns : Nat) :
    read_stream chunks max_bytes declared turns = some (.error .upload_too_large, 0) := by
  obtain ⟨n, rfl, hn⟩ := h
  exact if_pos (decide_eq_true hn)

theorem read_stream_undeclared {declared : Option Int} (h : ¬ DeclaredOver max_bytes declared)
    (turns : Nat) :
    read_stream chunks max_bytes declared turns = read_turns max_bytes chunks turns 0 [] := by
  refine if_neg fun hany => h ?_
  obtain ⟨n, hn, hover⟩ := (Option.any_eq_true _ _).mp hany
  exact ⟨n, hn, of_decide_eq_true hover⟩

/-- **The bounded reader.** A declared length over the cap is refused before a chunk is
    pulled. Otherwise the chunk that passes the cap is the last one pulled, and no more than
    the cap and that chunk has been read; a stream that ends below the cap gives its bytes,
    if there are any; and one that goes on below it for ever has no result. The chunks the
    bytes come in make no difference to a result, nor to whether there is a refusal. -/
theorem bounded_reader (chunks : Chunks) (max_bytes : Nat) (declared : Option Int) :
    (DeclaredOver max_bytes declared → ∀ turns,
      read_stream chunks max_bytes declared turns = some (.error .upload_too_large, 0)) ∧
    (¬ DeclaredOver max_bytes declared →
      (∀ n, chunks.Crosses max_bytes n →
        (∀ turns, n < turns → read_stream chunks max_bytes declared turns =
          some (.error .upload_too_large, n + 1)) ∧
        ∃ chunk, chunks.pull n = some chunk ∧
          (chunks.first_bytes (n + 1)).length ≤ max_bytes + chunk.length) ∧
      (∀ n, chunks.Stops n → (chunks.first_bytes n).length ≤ max_bytes →
        ∀ turns, n < turns → read_stream chunks max_bytes declared turns =
          some (if (chunks.first_bytes n).isEmpty then .error .empty_upload
            else .ok (chunks.first_bytes n), n)) ∧
      ((∀ n, chunks.pull n ≠ none) → (∀ n, (chunks.first_bytes n).length ≤ max_bytes) →
        ∀ turns, read_stream chunks max_bytes declared turns = none)) ∧
    ∀ other, SameBytes chunks other →
      (∀ turns turns' r r' pulled pulled',
        read_stream chunks max_bytes declared turns = some (r, pulled) →
        read_stream other max_bytes declared turns' = some (r', pulled') → r = r') ∧
      ((∃ n, chunks.Crosses max_bytes n) ↔ ∃ n, other.Crosses max_bytes n) := by
  refine ⟨read_stream_declared, fun hfree => ⟨fun n hcross => ⟨?_, ?_⟩, ?_, ?_⟩, ?_⟩
  · intro turns hturns
    rw [read_stream_undeclared hfree]
    exact read_turns_crosses hcross hturns
  · obtain ⟨chunk, hchunk⟩ := Option.ne_none_iff_exists'.mp hcross.pulled
    refine ⟨chunk, hchunk, ?_⟩
    have hbefore := hcross.1
    rw [Chunks.first_bytes, hchunk, List.length_append]
    exact Nat.add_le_add_right hbefore _
  · intro n hstop hwithin turns hturns
    rw [read_stream_undeclared hfree]
    exact read_turns_stops hstop hwithin hturns
  · intro hpulled hwithin turns
    rw [read_stream_undeclared hfree]
    exact read_turns_unfinished (fun i _ => hpulled i) (hwithin turns)
  · -- how the bytes are cut into chunks decides only how many chunks are pulled
    intro other hsame
    refine ⟨fun turns turns' r r' pulled pulled' hr hr' => ?_,
      fun ⟨n, hn⟩ => hsame.crosses hn, fun ⟨n, hn⟩ => hsame.symm.crosses hn⟩
    by_cases hdeclared : DeclaredOver max_bytes declared
    · rw [read_stream_declared hdeclared] at hr hr'
      cases hr
      cases hr'
      rfl
    · rw [read_stream_undeclared hdeclared] at hr hr'
      exact read_turns_same hsame hr hr'

namespace Sample

/-- Two bytes at a time, without end. -/
def endless : Chunks := ⟨fun _ => some [0, 0], fun _ h => by cases h⟩

end Sample

/-- A cap of three bytes: of an endless stream two chunks are pulled, and a stream of three
    bytes in two chunks is read to its end. -/
theorem three_bytes_read :
    (∀ turns, 1 < turns →
      read_stream Sample.endless 3 none turns = some (.error .upload_too_large, 2)) ∧
    ∀ turns, 2 < turns →
      read_stream (.of_list [[1], [2, 3]]) 3 none turns = some (.ok [1, 2, 3], 2) := by
  have hfree : ¬ DeclaredOver 3 none := by
    rintro ⟨n, hn, _⟩
    cases hn
  constructor
  · exact (((bounded_reader Sample.endless 3 none).2.1 hfree).1 1 ⟨by decide, by decide⟩).1
  · have hstops : (Chunks.of_list [[1], [2, 3]]).Stops 2 := by
      refine ⟨fun i hi => ?_, rfl⟩
      rcases Nat.lt_succ_iff_lt_or_eq.mp hi with hi | rfl
      · obtain rfl := Nat.lt_one_iff.mp hi
        exact nofun
      · exact nofun
    exact ((bounded_reader (.of_list [[1], [2, 3]]) 3 none).2.1 hfree).2.1 2 hstops (by decide)

/-! ### A finite list -/

/-- The loop over the stream and the recursion over the list go together. -/
theorem read_turns_list {all chunks : List Bytes} {pulled turns : Nat} {buffer : Bytes}
    (hrest : all.drop pulled = chunks) (hturns : chunks.length < turns) :
    ∃ r count, read_turns max_bytes (Chunks.of_list all) turns pulled buffer = some (r, count) ∧
      read_chunks max_bytes buffer chunks = ok_or r := by
  induction chunks generalizing pulled turns buffer with
  | nil =>
    obtain ⟨turns, rfl⟩ := Nat.exists_eq_add_one_of_ne_zero (Nat.ne_of_gt hturns)
    have hend : (Chunks.of_list all).pull pulled = none := by
      show all[pulled]? = none
      rw [List.getElem?_eq_none_iff]
      exact List.drop_eq_nil_iff.mp hrest
    refine ⟨_, pulled, by rw [read_turns, hend], ?_⟩
    unfold read_chunks
    split <;> rfl
  | cons chunk chunks ih =>
    obtain ⟨turns, rfl⟩ := Nat.exists_eq_add_one_of_ne_zero (Nat.ne_of_gt (Nat.zero_lt_of_lt hturns))
    have hhead : (Chunks.of_list all).pull pulled = some chunk := by
      show all[pulled]? = some chunk
      rw [← List.head?_drop, hrest]
      rfl
    have htail : all.drop (pulled + 1) = chunks := by
      rw [← List.tail_drop, hrest]
      rfl
    rw [read_turns, hhead, read_chunks]
    by_cases hover : max_bytes < (buffer ++ chunk).length
    · exact ⟨_, _, if_pos hover, if_pos hover⟩
    · obtain ⟨r, count, hstream, hlist⟩ := ih htail (Nat.lt_of_succ_lt_succ hturns)
      exact ⟨r, count, (if_neg hover).trans hstream, (if_neg hover).trans hlist⟩

/-- The reader of the upload routes is this one, on the list of the chunks. -/
theorem read_bounded_stream (chunks : List Bytes) (max_bytes : Nat) (declared : Option Nat) :
    ∃ r count, read_stream (.of_list chunks) max_bytes (declared.map Int.ofNat)
        (chunks.length + 1) = some (r, count) ∧
      read_bounded chunks max_bytes declared = ok_or r := by
  have hsame : (declared.map Int.ofNat).any (fun n => decide ((max_bytes : Int) < n)) =
      declared.any (fun n => decide (max_bytes < n)) := by
    cases declared with
    | none => rfl
    | some n => exact decide_eq_decide.mpr Int.ofNat_lt
  unfold read_stream read_bounded
  rw [hsame]
  by_cases hover : declared.any (fun n => decide (max_bytes < n)) = true
  · rw [if_pos hover, if_pos hover]
    exact ⟨_, _, rfl, rfl⟩
  · rw [if_neg hover, if_neg hover]
    exact read_turns_list rfl (Nat.lt_succ_self _)

end CounselReady
