import CounselReady.Sample

/-! # Pages That Cannot Be Read

    A page whose extraction raises is to be recorded with an empty text, so that
    it costs none of the others. Three kinds of exception are caught; any other
    one ends the whole upload.
-/

namespace CounselReady

variable {Token : Type} {srv : Server Token}

/-- The exceptions that stand for an unreadable page. -/
def PdfError.caught : PdfError → Bool
  | .py_pdf => true
  | .value_error => true
  | .key_error => true
  | .not_implemented => false
  | .other => false

/-- The reader opens the file, which has `n` pages. -/
structure Openable (srv : Server Token) (data : Bytes) (reader : PdfReader) (n : Nat) : Prop where
  magic : pdf_magic.isPrefixOf data = true
  opened : srv.pdf_reader data = .ok reader
  unlocked : unlock reader = .ok ()
  counted : reader.page_count = .ok n

/-- What the page at `index` is to be recorded as. -/
def promised_page (reader : PdfReader) (max_chars_per_page index : Nat) : ExtractedPage where
  page_number := (index : Int) + 1
  text := match reader.extract_text index with
    | .ok text => String.ofList ((text.getD "").toList.take max_chars_per_page)
    | .error _ => ""

/-- Every page is there, in order, and the document needs OCR when one of them is blank. -/
structure PagesKept (reader : PdfReader) (max_chars_per_page n : Nat) (r : ExtractionResult) :
    Prop where
  count : r.pages.length = n
  page : ∀ i < n, r.pages[i]? = some (promised_page reader max_chars_per_page i)
  ocr : r.needs_ocr = true ↔ ∃ page ∈ r.pages, strip page.text = ""

theorem extract_page_kept {reader : PdfReader} {max_chars index : Nat}
    (h : ∀ e, reader.extract_text index = .error e → e.caught = true) :
    extract_page reader max_chars index = .ok (promised_page reader max_chars index) := by
  unfold extract_page promised_page
  cases htext : reader.extract_text index with
  | ok text => rfl
  | error e =>
    have hcaught := h e htext
    cases e with
    | py_pdf => simp
    | value_error => simp
    | key_error => simp
    | not_implemented => cases hcaught
    | other => cases hcaught

theorem extract_page_escapes {reader : PdfReader} {index : Nat} {e : PdfError}
    (max_chars : Nat) (htext : reader.extract_text index = .error e) (hcaught : e.caught = false) :
    ∃ exc, extract_page reader max_chars index = .error exc := by
  unfold extract_page
  rw [htext]
  cases e with
  | py_pdf => cases hcaught
  | value_error => cases hcaught
  | key_error => cases hcaught
  | not_implemented => exact ⟨_, rfl⟩
  | other => exact ⟨_, rfl⟩

/-- The loop goes through when every page is read or caught. -/
theorem extract_pages_kept {reader : PdfReader} (max_chars : Nat) {indices : List Nat}
    (h : ∀ i ∈ indices, ∀ e, reader.extract_text i = .error e → e.caught = true) :
    extract_pages reader max_chars indices =
      .ok (indices.map (promised_page reader max_chars)) := by
  induction indices with
  | nil => rfl
  | cons index indices ih =>
    have hrest := ih fun i hi => h i (List.mem_cons_of_mem _ hi)
    unfold extract_pages
    rw [extract_page_kept (h index List.mem_cons_self), hrest]
    rfl

/-- One exception that is not caught ends it. -/
theorem extract_pages_escapes {reader : PdfReader} {i : Nat} {indices : List Nat}
    (max_chars : Nat) (hi : i ∈ indices) {e : PdfError} (htext : reader.extract_text i = .error e)
    (hcaught : e.caught = false) : ∃ exc, extract_pages reader max_chars indices = .error exc := by
  induction indices with
  | nil => exact absurd hi List.not_mem_nil
  | cons index indices ih =>
    unfold extract_pages
    cases hpage : extract_page reader max_chars index with
    | error exc => exact ⟨exc, rfl⟩
    | ok page =>
      rcases List.mem_cons.mp hi with rfl | hi
      · -- the page at hand did not raise, so the exception is a later one's
        obtain ⟨exc, hexc⟩ := extract_page_escapes max_chars htext hcaught
        rw [hexc] at hpage
        cases hpage
      · obtain ⟨exc, hexc⟩ := ih hi
        rw [hexc]
        exact ⟨exc, rfl⟩

/-- For a file that opens, extraction is the loop over its pages. -/
theorem extract_text_layer_open {data : Bytes} {reader : PdfReader} {n max_pages max_chars : Nat}
    (hopen : Openable srv data reader n) (hmax : n ≤ max_pages) :
    extract_text_layer srv data max_pages max_chars =
      match extract_pages reader max_chars (List.range n) with
      | .error e => .error e
      | .ok pages => if pages.isEmpty then .error .unreadable_pdf else .ok ⟨pages⟩ := by
  have hcap : ¬ max_pages < n := by omega
  unfold extract_text_layer
  cases hpages : extract_pages reader max_chars (List.range n) with
  | error e =>
    simp only [hopen.magic, hopen.opened, hopen.unlocked, hopen.counted, if_true, if_neg hcap, hpages]
  | ok pages =>
    simp only [hopen.magic, hopen.opened, hopen.unlocked, hopen.counted, if_true, if_neg hcap, hpages]

theorem needs_ocr_iff (r : ExtractionResult) :
    r.needs_ocr = true ↔ ∃ page ∈ r.pages, strip page.text = "" := by
  simp [ExtractionResult.needs_ocr, has_text]

/-- **One unreadable page.** It loses none of the others exactly when every page that
    raises raises one of the exceptions that are caught. -/
theorem pages_kept_iff {data : Bytes} {reader : PdfReader} {n max_pages max_chars : Nat}
    (hopen : Openable srv data reader n) (hpos : 1 ≤ n) (hmax : n ≤ max_pages) :
    (∃ r, extract_text_layer srv data max_pages max_chars = .ok r ∧
        PagesKept reader max_chars n r) ↔
      ∀ i < n, ∀ e, reader.extract_text i = .error e → e.caught = true := by
  rw [extract_text_layer_open hopen hmax]
  constructor
  · intro hkept i hi e htext
    -- one page whose exception escapes loses the document
    by_contra hcaught
    obtain ⟨exc, hexc⟩ := extract_pages_escapes max_chars (List.mem_range.mpr hi) htext
      (Bool.eq_false_iff.mpr hcaught)
    rw [hexc] at hkept
    obtain ⟨r, hr, _⟩ := hkept
    cases hr
  · intro hall
    have hpages := extract_pages_kept max_chars
      (fun i hi => hall i (List.mem_range.mp hi))
    have hsome : (List.range n).map (promised_page reader max_chars) ≠ [] := by
      intro hnil
      have hlength := congrArg List.length hnil
      simp at hlength
      omega
    rw [hpages]
    refine ⟨⟨(List.range n).map (promised_page reader max_chars)⟩, ?_, ?_, ?_, needs_ocr_iff _⟩
    · simp only [List.isEmpty_eq_false_iff.mpr hsome, Bool.false_eq_true, if_false]
    · simp
    · intro i hi
      simp [hi]

/-- A file of two pages; the second one raises what its text says. -/
def damaged_reader (damage : PdfError) : PdfReader where
  is_encrypted := false
  decrypt := .ok true
  page_count := .ok 2
  extract_text := fun index => if index = 0 then .ok (some "On 4 May") else .error damage

def damaged_server (damage : PdfError) : Server Payload :=
  { Sample.server with pdf_reader := fun _ => .ok (damaged_reader damage) }

theorem damaged_openable (damage : PdfError) :
    Openable (damaged_server damage) pdf_magic (damaged_reader damage) 2 where
  magic := rfl
  opened := rfl
  unlocked := rfl
  counted := rfl

/-- A malformed second page leaves the first one standing. -/
theorem malformed_page_kept :
    ∃ r, extract_text_layer (damaged_server .py_pdf) pdf_magic 2000 200000 = .ok r ∧
      PagesKept (damaged_reader .py_pdf) 200000 2 r := by
  refine (pages_kept_iff (damaged_openable .py_pdf) (by decide) (by decide)).mpr ?_
  intro i _ e htext
  by_cases hfirst : i = 0
  · simp [damaged_reader, hfirst] at htext
  · simp only [damaged_reader, if_neg hfirst] at htext
    cases htext
    rfl

/-- A second page that raises a `RecursionError` loses the first. -/
theorem recursive_page_loses_document :
    Openable (damaged_server .other) pdf_magic (damaged_reader .other) 2 ∧
    ¬ ∃ r, extract_text_layer (damaged_server .other) pdf_magic 2000 200000 = .ok r ∧
      PagesKept (damaged_reader .other) 200000 2 r := by
  refine ⟨damaged_openable .other, ?_⟩
  rintro ⟨r, hr, _⟩
  have hlost : extract_text_layer (damaged_server .other) pdf_magic 2000 200000 =
      .error .unclassified := rfl
  rw [hlost] at hr
  cases hr

end CounselReady
