import CounselReady.Frontend.Reader

/-! # What the Reader Highlights

    Offsets count code points on the server and UTF-16 code units in the
    browser. The run that is marked for a passage is its quote exactly when the
    two counts are in step. Whatever the passages of a page, its runs are its text,
    and with the passages sorted the marked characters are the covered ones.
-/

namespace CounselReady

open Framework

/-! ### One passage -/

theorem slice_min {α : Type} (text : List α) (start stop : Nat) :
    slice text (min start text.length) (min stop text.length) = slice text start stop := by
  unfold slice
  refine List.ext_getElem? fun i => ?_
  simp only [List.getElem?_take, List.getElem?_drop]
  by_cases hin : start + i < text.length
  · have hstart : min start text.length = start := by omega
    rw [hstart]
    by_cases hi : i < stop - start
    · rw [if_pos (by omega), if_pos hi]
    · rw [if_neg (by omega), if_neg hi]
  · have hnone : text[start + i]? = none := List.getElem?_eq_none (by omega)
    rw [hnone, if_neg (by omega)]
    split <;> rfl

@[simp] theorem highlighted_append (a b : List Segment) :
    highlighted (a ++ b) = highlighted a ++ highlighted b := by
  simp [highlighted]

@[simp] theorem highlighted_plain (c : Prop) [Decidable c] (text : List CodeUnit) :
    highlighted (if c then [⟨text, false⟩] else []) = [] := by
  unfold highlighted
  split <;> simp

@[simp] theorem highlighted_cited (c : Prop) [Decidable c] (text : List CodeUnit) :
    highlighted (if c then [⟨text, true⟩] else []) = if c then text else [] := by
  unfold highlighted
  split <;> simp

/-- For a single passage the clamping changes nothing. -/
theorem highlighted_single {text : List CodeUnit} {p : PassageResponse}
    (hstart : 0 ≤ p.start_offset) (hstop : p.start_offset < p.end_offset) :
    highlighted (segments text [p]) =
      slice text p.start_offset.toNat p.end_offset.toNat := by
  simp only [segments, segments_from, highlighted_append, highlighted_plain, highlighted_cited,
    List.nil_append, List.append_nil]
  have hclamp := slice_min text p.start_offset.toNat p.end_offset.toNat
  rw [← hclamp]
  have hlow : (max 0 (min p.start_offset text.length)).toNat =
      min p.start_offset.toNat text.length := by
    omega
  have hhigh : (max (max 0 (min p.start_offset text.length))
      (min p.end_offset text.length)).toNat = min p.end_offset.toNat text.length := by
    omega
  rw [hlow, hhigh]
  by_cases hsome : max 0 (min p.start_offset text.length) <
      max (max 0 (min p.start_offset text.length)) (min p.end_offset text.length)
  · rw [if_pos hsome]
  · -- both offsets lie behind the end of the page
    have hsame : min p.end_offset.toNat text.length - min p.start_offset.toNat text.length = 0 := by
      omega
    rw [if_neg hsome]
    unfold slice
    rw [hsame, List.take_zero]

/-! ### The quote -/

/-- The slice the quote was taken from, as code points. -/
theorem code_points_slice (s : String) (start stop : Nat) :
    code_points (String.ofList (slice s.toList start stop)) = slice (code_points s) start stop := by
  unfold code_points slice
  rw [String.toList_ofList, List.map_take, List.map_drop]

/-- **The marked run is the quote exactly in step.** For every text and every passage of
    it, and so for every page the server sends with a passage on it. -/
theorem highlight_exact_iff (text : List CodePoint) (p : PassageResponse)
    (hstart : 0 ≤ p.start_offset) (hstop : p.start_offset < p.end_offset) :
    (highlighted (segments (utf16 text) [p]) =
        utf16 (slice text p.start_offset.toNat p.end_offset.toNat) ↔
      InStep text p.start_offset.toNat p.end_offset.toNat) ∧
    ∀ (page : DocumentPage) (p : Passage), row_fits .passage p = none → p.page_id = page.id →
      p.quote = String.ofList (slice page.text.toList p.start_offset.toNat p.end_offset.toNat) →
      (highlighted (segments (js_string (page_response [p] page).text)
          (page_response [p] page).passages) = js_string p.quote ↔
        InStep (code_points page.text) p.start_offset.toNat p.end_offset.toNat) := by
  -- offsets count code points, the browser slices code units
  have hany : ∀ (text : List CodePoint) (p : PassageResponse),
      0 ≤ p.start_offset → p.start_offset < p.end_offset →
      (highlighted (segments (utf16 text) [p]) =
          utf16 (slice text p.start_offset.toNat p.end_offset.toNat) ↔
        InStep text p.start_offset.toNat p.end_offset.toNat) := by
    intro text p hstart hstop
    rw [highlighted_single hstart hstop, slice_utf16_iff]
  refine ⟨hany text p hstart hstop, ?_⟩
  intro page p hfits hpage hquote
  have hoffsets : 0 ≤ p.start_offset ∧ p.start_offset < p.end_offset := by
    simpa using (columns_none.mp hfits).2.2
  have hserved : (page_response [p] page).passages = [passage_response p] := by
    simp [page_response, Handler.order_by, hpage]
  have hjs : js_string p.quote =
      utf16 (slice (code_points page.text) p.start_offset.toNat p.end_offset.toNat) := by
    unfold js_string
    rw [hquote, code_points_slice]
  rw [hserved, hjs]
  exact hany (code_points page.text) (passage_response p) hoffsets.1 hoffsets.2

/-- A page, and a passage of it. -/
def quoted_page (text : String) : DocumentPage := ⟨1#128, 2#128, 1, text, none⟩

def quoted_passage (start stop : Int) (quote : String) : Passage :=
  ⟨3#128, 1#128, start, stop, quote⟩

/-- Without a character outside the Basic Multilingual Plane the counts agree. -/
theorem plain_quote_marked :
    highlighted (segments (utf16 (code_points "On 4 May"))
        [passage_response (quoted_passage 3 8 "4 May")]) =
      utf16 (slice (code_points "On 4 May") 3 8) ∧
    highlighted (segments (js_string (page_response [quoted_passage 3 8 "4 May"]
        (quoted_page "On 4 May")).text)
      (page_response [quoted_passage 3 8 "4 May"] (quoted_page "On 4 May")).passages) =
        js_string "4 May" := by
  have hstep : InStep (code_points "On 4 May") 3 8 := .of_plain (by decide) (by decide)
  obtain ⟨htext, hpage⟩ := highlight_exact_iff (code_points "On 4 May")
    (passage_response (quoted_passage 3 8 "4 May")) (by decide) (by decide)
  constructor
  · exact htext.mpr hstep
  · exact (hpage (quoted_page "On 4 May") (quoted_passage 3 8 "4 May") (by decide)
      rfl (by decide)).mpr hstep

/-- An emoji stands before the passage: its last word is quoted, the blank before that word
    is marked. -/
theorem quote_after_emoji_missed :
    row_fits .passage (quoted_passage 2 3 "a") = none ∧
    (quoted_passage 2 3 "a").quote = String.ofList (slice "😀 a".toList 2 3) ∧
    highlighted (segments (js_string (page_response [quoted_passage 2 3 "a"]
        (quoted_page "😀 a")).text)
      (page_response [quoted_passage 2 3 "a"] (quoted_page "😀 a")).passages) = js_string " " ∧
    js_string " " ≠ js_string "a" := by
  decide

/-! ### Any list of passages -/

/-- Whether the code unit at `i` is marked. -/
def cited_at : List Segment → Nat → Bool
  | [], _ => false
  | run :: rest, i => if i < run.text.length then run.cited else cited_at rest (i - run.text.length)

/-- The code unit at `i` lies inside the passage. -/
def PassageResponse.Covers (p : PassageResponse) (i : Int) : Prop :=
  p.start_offset ≤ i ∧ i < p.end_offset

/-- The order `read_document` delivers passages in. -/
def ByStart (passages : List PassageResponse) : Prop :=
  passages.Pairwise (fun a b => a.start_offset ≤ b.start_offset)

/-- A run that is left out when it is empty. -/
theorem cited_at_run {text : List CodeUnit} {start stop : Int} (cited : Bool)
    (rest : List Segment) (i : Nat) (hstart : 0 ≤ start) (hstop : stop ≤ text.length)
    (hle : start ≤ stop) :
    cited_at ((if start < stop then [⟨slice text start.toNat stop.toNat, cited⟩] else []) ++ rest) i =
      if i < stop - start then cited else cited_at rest (i - (stop - start).toNat) := by
  by_cases hsome : start < stop
  · have hlength : (slice text start.toNat stop.toNat).length = (stop - start).toNat := by
      unfold slice
      simp only [List.length_take, List.length_drop]
      omega
    rw [if_pos hsome, List.singleton_append]
    simp only [cited_at, hlength]
    by_cases hi : (i : Int) < stop - start
    · rw [if_pos hi, if_pos (by omega)]
    · rw [if_neg hi, if_neg (by omega)]
  · have hnone : (stop - start).toNat = 0 := by omega
    rw [if_neg hsome, List.nil_append, if_neg (by omega), hnone, Nat.sub_zero]

theorem slice_append {α : Type} {text : List α} {a b c : Nat} (hab : a ≤ b) (hbc : b ≤ c) :
    slice text a b ++ slice text b c = slice text a c := by
  unfold slice
  have hdrop : text.drop b = (text.drop a).drop (b - a) := by
    rw [List.drop_drop]
    congr 1
    omega
  have hlength : c - a = (b - a) + (c - b) := by omega
  rw [hdrop, hlength, List.take_add]

theorem flatMap_run (text : List CodeUnit) {start stop : Int} (cited : Bool)
    (hstart : 0 ≤ start) (hle : start ≤ stop) :
    (if start < stop then [(⟨slice text start.toNat stop.toNat, cited⟩ : Segment)] else []).flatMap
      Segment.text = slice text start.toNat stop.toNat := by
  by_cases hsome : start < stop
  · rw [if_pos hsome]
    simp
  · have hsame : stop.toNat - start.toNat = 0 := by omega
    rw [if_neg hsome]
    unfold slice
    rw [hsame, List.take_zero, List.flatMap_nil]

/-- The cursor never passes the end of the page, and what lies before it has been shown. -/
theorem segments_from_text {text : List CodeUnit} (passages : List PassageResponse) :
    ∀ cursor : Int, 0 ≤ cursor → cursor ≤ text.length →
      (segments_from text cursor passages).flatMap Segment.text =
        slice text cursor.toNat text.length := by
  induction passages with
  | nil =>
    intro cursor hlow hhigh
    have hrest := flatMap_run text false hlow hhigh
    rw [Int.toNat_natCast] at hrest
    exact hrest
  | cons p rest ih =>
    intro cursor hlow hhigh
    let start := max cursor (min p.start_offset text.length)
    let stop := max start (min p.end_offset text.length)
    have hcs : cursor ≤ start := Int.le_max_left _ _
    have hss : start ≤ stop := Int.le_max_left _ _
    have hend : stop ≤ text.length := by omega
    have hnext : max cursor stop = stop := by omega
    show List.flatMap Segment.text (_ ++ _ ++ segments_from text (max cursor stop) rest) = _
    rw [hnext, List.flatMap_append, List.flatMap_append, flatMap_run _ _ hlow hcs,
      flatMap_run _ _ (by omega) hss, ih stop (by omega) hend, slice_append (by omega) (by omega),
      slice_append (by omega) (by omega)]

theorem segments_from_nonempty {text : List CodeUnit} (passages : List PassageResponse) :
    ∀ cursor : Int, 0 ≤ cursor → cursor ≤ text.length →
      ∀ run ∈ segments_from text cursor passages, run.text ≠ [] := by
  have hrun : ∀ (start stop : Int) (cited : Bool), 0 ≤ start → stop ≤ text.length →
      ∀ run ∈ (if start < stop then [(⟨slice text start.toNat stop.toNat, cited⟩ : Segment)]
        else []), run.text ≠ [] := by
    intro start stop cited hlow hhigh run hrun
    by_cases hsome : start < stop
    · rw [if_pos hsome] at hrun
      obtain rfl := List.mem_singleton.mp hrun
      intro hnil
      have hlength := congrArg List.length hnil
      unfold slice at hlength
      simp only [List.length_take, List.length_drop, List.length_nil] at hlength
      omega
    · rw [if_neg hsome] at hrun
      exact absurd hrun List.not_mem_nil
  induction passages with
  | nil =>
    intro cursor hlow hhigh
    have hrest := hrun cursor text.length false hlow (Int.le_refl _)
    rw [Int.toNat_natCast] at hrest
    exact hrest
  | cons p rest ih =>
    intro cursor hlow hhigh run hmem
    have hstart : max cursor (min p.start_offset text.length) ≤ text.length := by omega
    rw [segments_from, List.mem_append, List.mem_append] at hmem
    rcases hmem with (hmem | hmem) | hmem
    · exact hrun _ _ _ hlow hstart run hmem
    · exact hrun _ _ _ (by omega) (by omega) run hmem
    · exact ih _ (by omega) (by omega) run hmem

/-- What the passages do to the code unit `i` places behind the cursor. -/
theorem cited_at_nil {text : List CodeUnit} {cursor : Int} (hlow : 0 ≤ cursor)
    (hhigh : cursor ≤ text.length) (i : Nat) :
    cited_at (segments_from text cursor []) i = false := by
  have hrest := cited_at_run false [] i hlow (Int.le_refl _) hhigh
  rw [Int.toNat_natCast, List.append_nil] at hrest
  rw [segments_from, hrest]
  split <;> rfl

theorem cited_at_cons {text : List CodeUnit} {cursor start stop : Int} {p : PassageResponse}
    {rest : List PassageResponse} (hlow : 0 ≤ cursor) (hhigh : cursor ≤ text.length)
    (hstart : start = max cursor (min p.start_offset text.length))
    (hstop : stop = max start (min p.end_offset text.length)) (i : Nat) :
    cited_at (segments_from text cursor (p :: rest)) i =
      if cursor + i < start then false
      else if cursor + i < stop then true
      else cited_at (segments_from text stop rest) (cursor + i - stop).toNat := by
  have hnext : max cursor stop = stop := by omega
  have hfrom : 0 ≤ start ∧ start ≤ text.length ∧ cursor ≤ start := by omega
  have hto : stop ≤ text.length ∧ start ≤ stop := by omega
  have hplain := cited_at_run false
    ((if start < stop then [⟨slice text start.toNat stop.toNat, true⟩] else []) ++
      segments_from text stop rest) i hlow hfrom.2.1 hfrom.2.2
  have hmarked := cited_at_run true (segments_from text stop rest) (i - (start - cursor).toNat)
    hfrom.1 hto.1 hto.2
  rw [segments_from, ← hstart, ← hstop, hnext, List.append_assoc, hplain, hmarked]
  by_cases hbefore : cursor + i < start
  · rw [if_pos hbefore, if_pos (by omega)]
  · rw [if_neg hbefore, if_neg (by omega)]
    by_cases hinside : cursor + i < stop
    · rw [if_pos hinside, if_pos (by omega)]
    · rw [if_neg hinside, if_neg (by omega)]
      congr 1
      omega

/-- What is marked from the cursor on lies inside one of the passages to come. -/
theorem cited_from_sound {text : List CodeUnit} (passages : List PassageResponse) :
    ∀ (cursor : Int) (i : Nat), 0 ≤ cursor → cursor ≤ text.length →
      cited_at (segments_from text cursor passages) i = true →
      cursor + i < text.length ∧ ∃ p ∈ passages, p.Covers (cursor + i) := by
  induction passages with
  | nil =>
    intro cursor i hlow hhigh hcited
    rw [cited_at_nil hlow hhigh] at hcited
    cases hcited
  | cons p rest ih =>
    intro cursor i hlow hhigh hcited
    rw [cited_at_cons hlow hhigh rfl rfl] at hcited
    by_cases hbefore : cursor + i < max cursor (min p.start_offset text.length)
    · rw [if_pos hbefore] at hcited
      cases hcited
    rw [if_neg hbefore] at hcited
    by_cases hinside : cursor + i <
        max (max cursor (min p.start_offset text.length)) (min p.end_offset text.length)
    · have hcover : p.Covers (cursor + i) := by
        unfold PassageResponse.Covers
        omega
      exact ⟨by omega, p, List.mem_cons_self, hcover⟩
    · rw [if_neg hinside] at hcited
      obtain ⟨hbound, q, hq, hcover⟩ := ih _ _ (by omega) (by omega) hcited
      have hplace : ∀ a b : Int, a + (b - a) = b := fun a b => by omega
      rw [Int.toNat_of_nonneg (by omega), hplace] at hbound hcover
      exact ⟨hbound, q, List.mem_cons_of_mem _ hq, hcover⟩

/-- With the passages sorted, none reaches back to what the cursor has left unmarked. -/
theorem cited_from_complete {text : List CodeUnit} (passages : List PassageResponse)
    (hsorted : ByStart passages) :
    ∀ (cursor : Int) (i : Nat), 0 ≤ cursor → cursor ≤ text.length →
      cursor + i < text.length → (∃ p ∈ passages, p.Covers (cursor + i)) →
      cited_at (segments_from text cursor passages) i = true := by
  induction passages with
  | nil =>
    intro cursor i _ _ _ hcover
    obtain ⟨p, hp, _⟩ := hcover
    exact absurd hp List.not_mem_nil
  | cons p rest ih =>
    intro cursor i hlow hhigh hinside hcover
    obtain ⟨hfirst, hsorted⟩ := List.pairwise_cons.mp hsorted
    obtain ⟨q, hq, hqstart, hqstop⟩ := hcover
    have hreached : p.start_offset ≤ cursor + i := by
      rcases List.mem_cons.mp hq with rfl | hq
      · exact hqstart
      · exact Int.le_trans (hfirst q hq) hqstart
    rw [cited_at_cons hlow hhigh rfl rfl, if_neg (by omega)]
    by_cases hmarked : cursor + i <
        max (max cursor (min p.start_offset text.length)) (min p.end_offset text.length)
    · rw [if_pos hmarked]
    · rw [if_neg hmarked]
      -- `p` itself ends before, so it is one of the others that covers it
      have hrest : q ∈ rest := by
        rcases List.mem_cons.mp hq with rfl | hq
        · omega
        · exact hq
      have hplace := Int.toNat_of_nonneg (show 0 ≤ cursor + i -
        max (max cursor (min p.start_offset text.length)) (min p.end_offset text.length) by omega)
      refine ih hsorted _ _ (by omega) (by omega) (by omega) ⟨q, hrest, ?_⟩
      rw [hplace]
      unfold PassageResponse.Covers
      omega

theorem page_by_start (passages : List Passage) (page : DocumentPage) :
    ByStart (page_response passages page).passages := by
  unfold ByStart page_response
  rw [List.pairwise_map]
  exact order_by_key Passage.start_offset _

/-- **Highlighting neither loses nor invents text.** -/
theorem segments_exact (text : List CodeUnit) (passages : List PassageResponse) :
    (∀ run ∈ segments text passages, run.text ≠ []) ∧
    (segments text passages).flatMap Segment.text = text ∧
    (∀ i, cited_at (segments text passages) i = true → ∃ p ∈ passages, p.Covers i) ∧
    (ByStart passages →
      (∀ i < text.length,
        cited_at (segments text passages) i = true ↔ ∃ p ∈ passages, p.Covers i) ∧
      ∀ other, other.Perm passages → ByStart other →
        cited_at (segments text other) = cited_at (segments text passages)) ∧
    ∀ (rows : List Passage) (page : DocumentPage), ByStart (page_response rows page).passages := by
  have hsound : ∀ (passages : List PassageResponse) (i : Nat),
      cited_at (segments text passages) i = true →
        i < text.length ∧ ∃ p ∈ passages, p.Covers i := by
    intro passages i hcited
    have hfrom := cited_from_sound passages 0 i (Int.le_refl 0) (by omega) hcited
    rw [Int.zero_add] at hfrom
    exact ⟨by omega, hfrom.2⟩
  have hexact : ∀ (passages : List PassageResponse) (i : Nat), ByStart passages →
      (cited_at (segments text passages) i = true ↔
        i < text.length ∧ ∃ p ∈ passages, p.Covers i) := by
    intro passages i hsorted
    constructor
    · exact hsound passages i
    · intro hcover
      -- the cursor starts at zero, so the run over the passages sees every unit
      have hbound : (0 : Int) + i < text.length := by omega
      refine cited_from_complete passages hsorted 0 i (Int.le_refl 0) (by omega) hbound ?_
      rw [Int.zero_add]
      exact hcover.2
  refine ⟨segments_from_nonempty passages 0 (Int.le_refl 0) (by omega), ?_,
    fun i hcited => (hsound passages i hcited).2, ?_, page_by_start⟩
  · have htext := @segments_from_text text passages 0 (Int.le_refl 0) (by omega)
    rw [segments, htext]
    simp [slice]
  · intro hsorted
    constructor
    · intro i hi
      rw [hexact passages i hsorted]
      exact and_iff_right hi
    · intro other hperm hother
      funext i
      rw [Bool.eq_iff_iff, hexact other i hother, hexact passages i hsorted]
      simp only [hperm.mem_iff]

end CounselReady
