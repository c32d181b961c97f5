import CounselReady.Guarantees.DocumentBytes
import CounselReady.Specs.DocumentChange

/-! # Documents Reported Complete

    Whatever the engine returns and wherever a turn fails, a document has the
    pages of its file, and is reported complete only when each of them has text.
    A page keeps the text of its own text layer; the others are written by OCR,
    and carry a confidence exactly when they have been.
-/

namespace CounselReady

open Relational Framework

variable {Token : Type} {srv : Server Token} {turn : Turn Token} {db db' : Database}

/-! ### Where a page comes from -/

/-- The turn stores this page as the text layer gave it. -/
inductive StoredBy (srv : Server Token) (turn : Turn Token) (p : DocumentPage) : Prop where
  | intro (env : Env) (data : Bytes) (extraction : ExtractionResult)
      (stores : turn.stores env data)
      (read : extract_text_layer srv data default_max_pages default_max_chars_per_page =
        .ok extraction)
      (row : p ∈ page_rows env (env.uuid 0) extraction.pages)

/-- The turn writes an OCR result to the blank page `p`, which becomes `q`. -/
inductive WrittenBy (turn : Turn Token) (p q : DocumentPage) : Prop where
  | intro (engine : OcrEngine) (data : Bytes) (pages : List OcrPage) (result : OcrPage)
      (reads : turn.reads p.document_id engine) (returned : engine data = .ok pages)
      (blank : has_text p.text = false) (found : by_number pages p.page_number = some result)
      (row : q = { p with text := result.text, ocr_confidence := some result.confidence })

/-- The page was stored with a text of its own, and has been there since. -/
inductive FromTextLayer (srv : Server Token) :
    List (Turn Token × Committed) → Committed → DocumentPage → Prop where
  | stored {past : List (Turn Token × Committed)} {w w' : Committed} {turn : Turn Token}
      {p : DocumentPage} (stores : StoredBy srv turn p) (text : has_text p.text = true)
      (committed : p ∈ w'.db .document_page) : FromTextLayer srv ((turn, w) :: past) w' p
  | kept {past : List (Turn Token × Committed)} {w w' : Committed} {turn : Turn Token}
      {p : DocumentPage} (before : FromTextLayer srv past w p)
      (present : ∃ q ∈ w'.db .document_page, DocumentPage.id q = p.id) :
      FromTextLayer srv ((turn, w) :: past) w' p

/-- An OCR result has been written to the page with this id, and the page has been
    there since. -/
inductive Written : List (Turn Token × Committed) → Committed → Uuid → Prop where
  | written {past : List (Turn Token × Committed)} {w w' : Committed} {turn : Turn Token}
      {p q : DocumentPage} (was : p ∈ w.db .document_page) (writes : WrittenBy turn p q)
      (committed : q ∈ w'.db .document_page) : Written ((turn, w) :: past) w' p.id
  | kept {past : List (Turn Token × Committed)} {w w' : Committed} {turn : Turn Token}
      {id : Uuid} (before : Written past w id)
      (present : ∃ q ∈ w'.db .document_page, DocumentPage.id q = id) :
      Written ((turn, w) :: past) w' id

/-- A row of the text layer belongs to its document and has no confidence. -/
theorem of_mem_page_rows {env : Env} {document_id : Uuid} {pages : List ExtractedPage}
    {p : DocumentPage} (h : p ∈ page_rows env document_id pages) :
    p.document_id = document_id ∧ p.ocr_confidence = none ∧
      ∃ page ∈ pages, p.text = page.text := by
  obtain ⟨i, hi, rfl⟩ := List.mem_mapIdx.mp h
  exact ⟨rfl, rfl, pages[i], List.getElem_mem hi, rfl⟩

theorem StoredBy.no_confidence {p : DocumentPage} (h : StoredBy srv turn p) :
    p.ocr_confidence = none := by
  cases h with
  | intro env data extraction stores read row => exact (of_mem_page_rows row).2.1

theorem WrittenBy.id_eq {p q : DocumentPage} (h : WrittenBy turn p q) : q.id = p.id := by
  cases h with
  | intro engine data pages result reads returned blank found row => rw [row]

theorem WrittenBy.confidence {p q : DocumentPage} (h : WrittenBy turn p q) :
    q.ocr_confidence ≠ none := by
  cases h with
  | intro engine data pages result reads returned blank found row => simp [row]

/-- A page after a turn was there before, or is stored by it beside all the others,
    or is one of the pages with a result written to it. -/
theorem DocumentChange.page (h : DocumentChange srv turn db db') {q : DocumentPage}
    (hq : q ∈ db' .document_page) :
    q ∈ db .document_page ∨
      (StoredBy srv turn q ∧ ∀ p ∈ db .document_page, p ∈ db' .document_page) ∨
      ∃ p ∈ db .document_page, WrittenBy turn p q := by
  cases h with
  | unchanged same =>
    rw [same] at hq
    exact .inl hq
  | kept env req asked plain h => exact .inl (h.page_rows q hq)
  | marked document_id documents pages jobs =>
    rw [pages] at hq
    exact .inl hq
  | stored env data d extraction stores read id count status documents pages jobs =>
    rw [pages] at hq
    have hall : ∀ p ∈ db .document_page, p ∈ db' .document_page := by
      intro p hp
      rw [pages]
      exact List.mem_append_left _ hp
    rcases List.mem_append.mp hq with hold | hnew
    · exact .inl hold
    · rw [id] at hnew
      exact .inr (.inl ⟨.intro env data extraction stores read hnew, hall⟩)
  | read document_id engine data pages reads result filled =>
    rw [filled.pages] at hq
    obtain ⟨p, hp, rfl⟩ := List.mem_map.mp hq
    by_cases hdoc : p.document_id = document_id
    · subst hdoc
      rw [if_pos rfl]
      -- only a blank page takes a result
      by_cases htext : has_text p.text = true
      · rw [filled_page_eq (.inl htext)]
        exact .inl hp
      · cases hres : by_number pages p.page_number with
        | none =>
          rw [filled_page_eq (.inr hres)]
          exact .inl hp
        | some r =>
          have hblank : has_text p.text = false := by simpa using htext
          have hwrites := filled_page_some htext hres
          exact .inr (.inr ⟨p, hp, .intro engine data pages r reads result hblank hres hwrites⟩)
    · rw [if_neg hdoc]
      exact .inl hp

/-! ### Confidences -/

section confidence
variable {past : List (Turn Token × Committed)} {w w' : Committed}

theorem Written.present {id : Uuid} (h : Written past w id) :
    ∃ q ∈ w.db .document_page, DocumentPage.id q = id := by
  cases h with
  | written was writes committed => exact ⟨_, committed, writes.id_eq⟩
  | kept before present => exact present

/-- **Step.** A page of the text layer is left as it is. -/
theorem text_layer_step (hc : schema.Consistent w.db)
    (hchange : DocumentChange srv turn w.db w'.db) {p : DocumentPage}
    (hp : p ∈ w.db .document_page) (htext : has_text p.text = true)
    (hpresent : ∃ q ∈ w'.db .document_page, DocumentPage.id q = p.id) :
    p ∈ w'.db .document_page := by
  obtain ⟨q, hq, hid⟩ := hpresent
  rcases hchange.page hq with hold | ⟨_, hall⟩ | ⟨p₁, hp₁, hwrites⟩
  · obtain rfl : q = p := hc.eq_of_pk hold hp hid
    exact hq
  · exact hall p hp
  · -- only a blank page is written to
    obtain rfl : p₁ = p := hc.eq_of_pk hp₁ hp (hwrites.id_eq.symm.trans hid)
    cases hwrites with
    | intro engine data pages result reads returned blank found row =>
      rw [htext] at blank
      cases blank

/-- **Run.** So it is still the page that was stored. -/
theorem FromTextLayer.row {p : DocumentPage} (h : FromTextLayer srv past w p)
    (hr : Run (turns srv) unrestricted .empty past w) :
    p ∈ w.db .document_page ∧ has_text p.text = true ∧ p.ocr_confidence = none := by
  induction h with
  | stored stores text committed => exact ⟨committed, text, stores.no_confidence⟩
  | kept before present ih =>
    cases hr with
    | next turn hprev _ hstep =>
      obtain ⟨hp, htext, hnone⟩ := ih hprev
      have hc := turns_consistent hprev
      subst hstep
      exact ⟨text_layer_step hc (Turn.document_change srv hc _) hp htext present, htext, hnone⟩

/-- **Step.** A page has a confidence exactly when a result has been written to it. -/
theorem written_step (hc : schema.Consistent w.db) (hc' : schema.Consistent w'.db)
    (hchange : DocumentChange srv turn w.db w'.db)
    (hw : ∀ p ∈ w.db .document_page, DocumentPage.ocr_confidence p ≠ none ↔
      Written past w (DocumentPage.id p)) {q : DocumentPage} (hq : q ∈ w'.db .document_page) :
    q.ocr_confidence ≠ none ↔ Written ((turn, w) :: past) w' q.id := by
  have horigin := hchange.page hq
  constructor
  · intro hconf
    rcases horigin with hold | ⟨hstored, _⟩ | ⟨p, hp, hwrites⟩
    · exact .kept ((hw q hold).mp hconf) ⟨q, hq, rfl⟩
    · exact absurd hstored.no_confidence hconf
    · have hwritten : Written ((turn, w) :: past) w' p.id := .written hp hwrites hq
      rwa [← hwrites.id_eq] at hwritten
  · intro hwritten
    generalize hid : q.id = i at hwritten
    cases hwritten with
    | written was writes committed =>
      -- one page for each id
      have hsame := hc'.eq_of_pk hq committed (hid.trans writes.id_eq.symm)
      rw [hsame]
      exact writes.confidence
    | kept before _ =>
      obtain ⟨p, hp, hpid⟩ := before.present
      have hconf : p.ocr_confidence ≠ none := by
        rw [← hpid] at before
        exact (hw p hp).mpr before
      have hsame : q.id = p.id := hid.trans hpid.symm
      rcases horigin with hold | ⟨_, hall⟩ | ⟨p', _, hwrites⟩
      · rw [hc.eq_of_pk hold hp hsame]
        exact hconf
      · rw [hc'.eq_of_pk hq (hall p hp) hsame]
        exact hconf
      · exact hwrites.confidence

/-- **Run.** A page has a confidence exactly when a turn of the run has written it. -/
theorem written_iff (hr : Run (turns srv) unrestricted .empty past w) :
    ∀ p ∈ w.db .document_page, DocumentPage.ocr_confidence p ≠ none ↔
      Written past w (DocumentPage.id p) := by
  induction hr with
  | start =>
    intro p hp
    cases hp
  | next turn hprev _ hstep ih =>
    intro q hq
    have hc := turns_consistent hprev
    subst hstep
    exact written_step hc (turn.consistent srv hc) (turn.document_change srv hc) ih hq

end confidence

/-! ### Page numbers and status -/

/-- The pages of the document are numbered from one to its page count. -/
def numbered (db : Database) (d : Document) : Prop :=
  ∃ n : Nat, 1 ≤ n ∧ d.page_count = n ∧
    (pages_in d.id (db .document_page)).map DocumentPage.page_number =
      (List.range n).map (fun i : Nat => (i : Int) + 1)

/-- A document reported complete has text on every page. -/
def all_read (db : Database) (d : Document) : Prop :=
  d.ocr_status = .complete →
    ∀ p ∈ pages_in d.id (db .document_page), has_text (DocumentPage.text p) = true

/-- The numbers are those of the file. -/
theorem numbers_of_extraction {data : Bytes} {extraction : ExtractionResult} (env : Env)
    (document_id : Uuid)
    (h : extract_text_layer srv data default_max_pages default_max_chars_per_page =
      .ok extraction) :
    1 ≤ extraction.pages.length ∧
      (page_rows env document_id extraction.pages).map DocumentPage.page_number =
        (List.range extraction.pages.length).map (fun i : Nat => (i : Int) + 1) := by
  obtain ⟨n, hnumbers⟩ := extract_text_layer_numbers h
  have hn : extraction.pages.length = n := by
    have hlen := congrArg List.length hnumbers
    simpa using hlen
  have hrows : (page_rows env document_id extraction.pages).map DocumentPage.page_number =
      extraction.pages.map ExtractedPage.page_number := by
    unfold page_rows
    apply List.ext_getElem <;> simp
  have hpos := (extract_text_layer_length h).1
  refine ⟨by omega, ?_⟩
  rw [hrows, hnumbers, hn]

/-- A new document has the pages stored with it and no other has any of them. -/
theorem pages_in_stored (hc : schema.Consistent db) (hc' : schema.Consistent db') {env : Env}
    {d : Document} {pages : List ExtractedPage} (hdocs : db' .document = db .document ++ [d])
    (hpages : db' .document_page = db .document_page ++ page_rows env d.id pages) :
    pages_in d.id (db' .document_page) = page_rows env d.id pages ∧
    ∀ d₀ ∈ db .document,
      pages_in (Document.id d₀) (db' .document_page) =
        pages_in (Document.id d₀) (db .document_page) := by
  have hdistinct := hc'.distinct .document
  rw [hdocs] at hdistinct
  have hnew : ∀ d₀ ∈ db .document, Document.id d₀ ≠ d.id := by
    intro d₀ hd₀
    exact (List.pairwise_append.mp hdistinct).2.2 d₀ hd₀ d (List.mem_singleton_self d)
  have hown : ∀ p ∈ page_rows env d.id pages, DocumentPage.document_id p = d.id :=
    fun p hp => (of_mem_page_rows hp).1
  constructor
  · rw [hpages]
    unfold pages_in
    rw [List.filter_append]
    -- a page of before belongs to a document of before
    have hnone : (db .document_page).filter
        (fun p => DocumentPage.document_id p == d.id) = [] := by
      rw [List.filter_eq_nil_iff]
      intro p hp hdoc
      obtain ⟨d₀, hd₀, hid⟩ := hc.target (k := belongs .document DocumentPage.document_id) hp
        List.mem_cons_self rfl
      have heq : DocumentPage.document_id p = d.id := by simpa using hdoc
      exact hnew d₀ hd₀ (hid.trans heq)
    have hall : (page_rows env d.id pages).filter
        (fun p => DocumentPage.document_id p == d.id) = page_rows env d.id pages := by
      rw [List.filter_eq_self]
      intro p hp
      simp [hown p hp]
    rw [hnone, hall, List.nil_append]
  · intro d₀ hd₀
    rw [hpages]
    unfold pages_in
    rw [List.filter_append]
    have hnone : (page_rows env d.id pages).filter
        (fun p => DocumentPage.document_id p == Document.id d₀) = [] := by
      rw [List.filter_eq_nil_iff]
      intro p hp hdoc
      have heq : DocumentPage.document_id p = Document.id d₀ := by simpa using hdoc
      exact hnew d₀ hd₀ (heq.symm.trans (hown p hp))
    rw [hnone, List.append_nil]

/-- Filling pages moves none of them. -/
theorem pages_in_read (document_id id : Uuid) (pages : List OcrPage)
    (stored : List DocumentPage) :
    pages_in id (read_pages document_id pages stored) =
      (pages_in id stored).map
        (fun p => if p.document_id = document_id then filled_page pages p else p) := by
  unfold pages_in read_pages
  rw [List.filter_map]
  congr 1
  refine List.filter_congr fun p _ => ?_
  by_cases hdoc : p.document_id = document_id <;> simp [hdoc]

theorem mem_set_status {document_id : Uuid} {status : OcrStatus} {documents : List Document}
    {d : Document} (h : d ∈ set_status document_id status documents) :
    ∃ d₀ ∈ documents, d₀.id = d.id ∧ d₀.page_count = d.page_count ∧
      ((d.id ≠ document_id ∧ d = d₀) ∨ (d.id = document_id ∧ d.ocr_status = status)) := by
  obtain ⟨d₀, hd₀, rfl⟩ := List.mem_map.mp h
  by_cases hid : d₀.id = document_id
  · refine ⟨d₀, hd₀, ?_⟩
    simp [hid]
  · refine ⟨d₀, hd₀, ?_⟩
    simp [hid]

/-- **Step.** The documents stay numbered. -/
theorem numbered_step (hc : schema.Consistent db) (hc' : schema.Consistent db')
    (h : DocumentChange srv turn db db') (hdb : ∀ d ∈ db .document, numbered db d) :
    ∀ d ∈ db' .document, numbered db' d := by
  intro d hd
  cases h with
  | unchanged same =>
    rw [same] at hd ⊢
    exact hdb d hd
  | kept env req asked plain h =>
    obtain ⟨n, hpos, hcount, hnumbers⟩ := hdb d (h.documents d hd)
    refine ⟨n, hpos, hcount, ?_⟩
    rw [h.pages d hd]
    exact hnumbers
  | marked document_id documents pages jobs =>
    rw [documents] at hd
    obtain ⟨d₀, hd₀, hid, hsame, _⟩ := mem_set_status hd
    obtain ⟨n, hpos, hcount, hnumbers⟩ := hdb d₀ hd₀
    refine ⟨n, hpos, hsame.symm.trans hcount, ?_⟩
    rw [pages, ← hid]
    exact hnumbers
  | stored env data d₁ extraction stores read id count status documents pages jobs =>
    obtain ⟨hnew, hold⟩ := pages_in_stored hc hc' documents pages
    rw [documents] at hd
    rcases List.mem_append.mp hd with hin | hin
    · obtain ⟨n, hpos, hcount, hnumbers⟩ := hdb d hin
      refine ⟨n, hpos, hcount, ?_⟩
      rw [hold d hin]
      exact hnumbers
    · obtain rfl := List.mem_singleton.mp hin
      obtain ⟨hpos, hnumbers⟩ := numbers_of_extraction env d.id read
      refine ⟨extraction.pages.length, hpos, count, ?_⟩
      rw [hnew]
      exact hnumbers
  | read document_id engine data pages reads result filled =>
    rw [filled.documents] at hd
    obtain ⟨d₀, hd₀, hid, hsame, _⟩ := mem_set_status hd
    obtain ⟨n, hpos, hcount, hnumbers⟩ := hdb d₀ hd₀
    refine ⟨n, hpos, hsame.symm.trans hcount, ?_⟩
    -- a result is a text, and no number
    rw [filled.pages, pages_in_read, ← hnumbers, ← hid, List.map_map]
    refine List.map_congr_left fun p _ => ?_
    by_cases hdoc : p.document_id = document_id <;> simp [hdoc]

/-- **Step.** The documents reported complete are read. The two places that set the
    status agree on what is blank. -/
theorem all_read_step (hc : schema.Consistent db) (hc' : schema.Consistent db')
    (h : DocumentChange srv turn db db') (hdb : ∀ d ∈ db .document, all_read db d) :
    ∀ d ∈ db' .document, all_read db' d := by
  intro d hd hcomplete p hp
  cases h with
  | unchanged same =>
    rw [same] at hd hp
    exact hdb d hd hcomplete p hp
  | kept env req asked plain h =>
    rw [h.pages d hd] at hp
    exact hdb d (h.documents d hd) hcomplete p hp
  | marked document_id documents pages jobs =>
    rw [documents] at hd
    rw [pages] at hp
    obtain ⟨d₀, hd₀, _, _, hother | hmarked⟩ := mem_set_status hd
    · obtain ⟨_, rfl⟩ := hother
      exact hdb d hd₀ hcomplete p hp
    · rw [hmarked.2] at hcomplete
      cases hcomplete
  | stored env data d₁ extraction stores read id count status documents pages jobs =>
    obtain ⟨hnew, hold⟩ := pages_in_stored hc hc' documents pages
    rw [documents] at hd
    rcases List.mem_append.mp hd with hin | hin
    · rw [hold d hin] at hp
      exact hdb d hin hcomplete p hp
    · -- complete from the start: no page of the extraction is blank
      obtain rfl := List.mem_singleton.mp hin
      rw [hnew] at hp
      obtain ⟨_, _, page, hpage, htext⟩ := of_mem_page_rows hp
      have hno : extraction.needs_ocr = false := by
        by_contra hneeds
        rw [status] at hcomplete
        simp [hneeds] at hcomplete
      unfold ExtractionResult.needs_ocr at hno
      rw [List.any_eq_false] at hno
      rw [htext]
      simpa using hno page hpage
  | read document_id engine data pages reads result filled =>
    rw [filled.documents] at hd
    rw [filled.pages, pages_in_read] at hp
    obtain ⟨p₀, hp₀, rfl⟩ := List.mem_map.mp hp
    have hdoc : p₀.document_id = d.id := by
      have hboth := (List.mem_filter.mp hp₀).2
      simpa using hboth
    obtain ⟨d₀, hd₀, _, _, hother | hread⟩ := mem_set_status hd
    · obtain ⟨hne, rfl⟩ := hother
      rw [if_neg (by rw [hdoc]; exact hne)]
      exact hdb d hd₀ hcomplete p₀ hp₀
    · -- complete now: the run found every page filled when it set the status
      obtain ⟨hid, hstatus⟩ := hread
      rw [if_pos (hdoc.trans hid)]
      rw [hstatus] at hcomplete
      have hall : ((pages_in document_id (db .document_page)).map (filled_page pages)).all
          (fun p => has_text p.text) = true := by
        by_contra hnot
        unfold read_status at hcomplete
        rw [if_neg hnot] at hcomplete
        cases hcomplete
      rw [List.all_eq_true] at hall
      rw [← hid] at hall
      exact hall _ (List.mem_map_of_mem hp₀)

/-! ### The guarantee -/

section runs
variable {past : List (Turn Token × Committed)} {w : Committed}

/-- **Run.** The pages of a document are numbered from one, and all read when it says so. -/
theorem numbered_and_read (hr : Run (turns srv) unrestricted .empty past w) :
    ∀ d ∈ w.db .document, numbered w.db d ∧ all_read w.db d := by
  suffices hall : (∀ d ∈ w.db .document, numbered w.db d) ∧
      ∀ d ∈ w.db .document, all_read w.db d from fun d hd => ⟨hall.1 d hd, hall.2 d hd⟩
  refine hr.invariant (I := fun _ w => (∀ d ∈ w.db .document, numbered w.db d) ∧
    ∀ d ∈ w.db .document, all_read w.db d) ?_ ?_
  · constructor
    · intro d hd
      cases hd
    · intro d hd
      cases hd
  · rintro past w turn w' hprev ⟨hnumbered, hread⟩ _ rfl
    have hc := turns_consistent hprev
    have hc' := turn.consistent srv hc
    have hchange := turn.document_change srv hc
    exact ⟨numbered_step hc hc' hchange hnumbered, all_read_step hc hc' hchange hread⟩

/-- **A document reported complete has been read.** In every state of every run, the
    pages of a document are numbered from one to its page count, all of them have
    text when it is complete, a page of the text layer is as it was stored, and a
    page has a confidence exactly when OCR has written to it. -/
theorem complete_document_read (hr : Run (turns srv) unrestricted .empty past w) :
    (∀ d ∈ w.db .document, numbered w.db d ∧ all_read w.db d) ∧
    (∀ p, FromTextLayer srv past w p → ∀ q ∈ w.db .document_page,
      DocumentPage.id q = DocumentPage.id p →
        DocumentPage.text q = DocumentPage.text p ∧ DocumentPage.ocr_confidence q = none) ∧
    ∀ p ∈ w.db .document_page,
      DocumentPage.ocr_confidence p ≠ none ↔ Written past w (DocumentPage.id p) := by
  refine ⟨numbered_and_read hr, ?_, written_iff hr⟩
  intro p hlayer q hq hid
  obtain ⟨hp, _, hnone⟩ := hlayer.row hr
  obtain rfl : q = p := (turns_consistent hr).eq_of_pk hq hp hid
  exact ⟨rfl, hnone⟩

end runs

/-- One page without a text layer. -/
def blank_page : Upload := ⟨pdf_magic, none, some "Scan", "upload", none⟩

/-- An engine that reads the first page, and one that is not there. -/
def first_page_engine : OcrEngine := fun _ =>
  .ok [⟨1, "signed", .finite (9 / 10)⟩, ⟨2, "no such page", .finite (1 / 10)⟩]

/-- An account uploads a scan, latest turn first. -/
def scan_uploaded : List (Turn Payload) :=
  [.step (.request (Sample.env 4 (103 * second))
      ⟨Sample.bearer (101 * second), .upload_document 12288#128 blank_page⟩),
   .step (.request (Sample.env 3 (102 * second))
      ⟨Sample.bearer (101 * second), .create_case "In re A" none none⟩),
   .step (.request (Sample.env 2 (101 * second)) ⟨none, .login "a@x.org" "correct horse"⟩),
   .step (.request (Sample.env 1 (100 * second))
      ⟨none, .register "a@x.org" "correct horse" none⟩)]

/-- The scan is read. -/
def scan_read : List (Turn Payload) :=
  .step (.ocr (Sample.env 5 (104 * second)) 16384#128 first_page_engine) :: scan_uploaded

/-- The scan is complete, and its page was written. -/
theorem scan_read_complete :
    (∃ d ∈ (played Sample.server scan_read).2.db .document, Document.ocr_status d = .complete ∧
      ∀ p ∈ pages_in d.id ((played Sample.server scan_read).2.db .document_page),
        has_text p.text = true) ∧
    Written (played Sample.server scan_read).1 (played Sample.server scan_read).2 16387#128 := by
  have hread := complete_document_read (run_played Sample.server scan_read)
  have hcomplete : ∃ d ∈ (played Sample.server scan_read).2.db .document,
      Document.ocr_status d = .complete := by decide +kernel
  have hpage : ∃ p ∈ (played Sample.server scan_read).2.db .document_page,
      DocumentPage.ocr_confidence p ≠ none ∧ DocumentPage.id p = 16387#128 := by decide +kernel
  obtain ⟨d, hd, hstatus⟩ := hcomplete
  obtain ⟨p, hp, hconf, hid⟩ := hpage
  refine ⟨⟨d, hd, hstatus, (hread.1 d hd).2 hstatus⟩, ?_⟩
  rw [← hid]
  exact (hread.2.2 p hp).mp hconf

end CounselReady
