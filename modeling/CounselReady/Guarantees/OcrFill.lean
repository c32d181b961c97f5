import CounselReady.Guarantees.PagesRead

/-! # What an OCR Run Fills

    A run that returns has written the results it was given to the pages that
    were blank, and to no other page, and has set the status by what is blank
    afterwards. Its count is the number of pages it wrote to. That is the
    number of pages that got a text exactly when none of the results written
    is itself blank.
-/

namespace CounselReady

open Relational Framework Handler Prog

/-! ### An exact fill -/

def has_no_text (p : DocumentPage) : Bool := !has_text p.text

/-- Of the results for page `n`, the one listed last. -/
def LastListed (pages : List OcrPage) (n : Int) (r : OcrPage) : Prop :=
  ∃ earlier later, pages = earlier ++ r :: later ∧ r.page_number = n ∧
    ∀ r' ∈ later, r'.page_number ≠ n

/-- The page is a blank page of the document, and `r` is the result for it. -/
def Fillable (document_id : Uuid) (pages : List OcrPage) (p : DocumentPage) (r : OcrPage) : Prop :=
  p.document_id = document_id ∧ has_text p.text = false ∧ LastListed pages p.page_number r

/-- A page before the run and after it. -/
inductive PageFill (document_id : Uuid) (pages : List OcrPage) (p : DocumentPage) :
    DocumentPage → Prop where
  | filled (r : OcrPage) (fillable : Fillable document_id pages p r) :
      PageFill document_id pages p { p with text := r.text, ocr_confidence := some r.confidence }
  | kept (unfillable : ∀ r, ¬ Fillable document_id pages p r) : PageFill document_id pages p p

/-- How many pages went from blank to having a text. -/
def gained (before after : List DocumentPage) : Nat :=
  before.countP (fun p => has_no_text p && after.any (fun p' => p'.id == p.id && has_text p'.text))

/-- The run with these results, from `s` to `s'`, returning `n`, is an exact fill. -/
structure FillExact (document_id : Uuid) (pages : List OcrPage) (s s' : Session) (n : Nat) :
    Prop where
  rows : List.Forall₂ (PageFill document_id pages) (s.db .document_page) (s'.db .document_page)
  status : ∃ status, s'.db .document = set_status document_id status (s.db .document) ∧
    (status = .complete ∨ status = .needs_ocr) ∧
    (status = .complete ↔
      ∀ p ∈ s'.db .document_page, DocumentPage.document_id p = document_id →
        has_text (DocumentPage.text p) = true)
  others : ∀ t, .document ≠ t → .document_page ≠ t → s'.db t = s.db t
  count : n = gained (s.db .document_page) (s'.db .document_page)
  /-- a second run with the same results, when it returns -/
  again : ∀ (t t' : Session) (m : Nat), t.db = s'.db →
    (run_ocr_for_document document_id (fun _ => .ok pages)).exec (perform schema run_ext) t =
      (.ok m, t') → t'.db = t.db ∧ m = 0
  /-- it does return, when the database is up and the store has the bytes -/
  returns : ∀ t : Session, t.db = s'.db → t.faults = [] →
    (∀ d ∈ t.db .document, Document.id d = document_id →
      ∃ data, (run_ext (Ext.get (Document.storage_key d)) t.ext).1 = .ok data) →
    ∃ m t', (run_ocr_for_document document_id (fun _ => .ok pages)).exec
      (perform schema run_ext) t = (.ok m, t')

/-! ### The result for a page -/

theorem by_number_some {pages : List OcrPage} {n : Int} {r : OcrPage} :
    by_number pages n = some r ↔ LastListed pages n r := by
  unfold by_number LastListed
  rw [List.find?_eq_some_iff_append]
  constructor
  · rintro ⟨hr, later, earlier, hsplit, hlater⟩
    refine ⟨earlier.reverse, later.reverse, ?_, by simpa using hr, ?_⟩
    · simpa using congrArg List.reverse hsplit
    · intro r' hr'
      simpa using hlater r' (by simpa using hr')
  · rintro ⟨earlier, later, rfl, hr, hlater⟩
    refine ⟨by simpa using hr, later.reverse, earlier.reverse, by simp, ?_⟩
    intro r' hr'
    simpa using hlater r' (by simpa using hr')

/-- A page of the document gets a result exactly when it is blank and one is listed. -/
theorem result_for_some {document_id : Uuid} {pages : List OcrPage} {p : DocumentPage}
    {r : OcrPage} (hdoc : p.document_id = document_id) :
    result_for pages p = some r ↔ Fillable document_id pages p r := by
  unfold result_for Fillable
  by_cases htext : has_text p.text = true
  · simp [htext]
  · simp [htext, hdoc, by_number_some]

theorem filled_page_of_result {pages : List OcrPage} {p : DocumentPage} {r : OcrPage}
    (h : result_for pages p = some r) :
    filled_page pages p = { p with text := r.text, ocr_confidence := some r.confidence } := by
  unfold result_for at h
  by_cases htext : has_text p.text = true
  · simp [htext] at h
  · rw [if_neg htext] at h
    exact filled_page_some htext h

theorem filled_page_of_none {pages : List OcrPage} {p : DocumentPage}
    (h : result_for pages p = none) : filled_page pages p = p := by
  unfold result_for at h
  by_cases htext : has_text p.text = true
  · exact filled_page_eq (.inl htext)
  · rw [if_neg htext] at h
    exact filled_page_eq (.inr h)

theorem page_fill {document_id : Uuid} {pages : List OcrPage} (p : DocumentPage) :
    PageFill document_id pages p
      (if p.document_id = document_id then filled_page pages p else p) := by
  by_cases hdoc : p.document_id = document_id
  · rw [if_pos hdoc]
    cases hres : result_for pages p with
    | some r =>
      rw [filled_page_of_result hres]
      exact .filled r ((result_for_some hdoc).mp hres)
    | none =>
      rw [filled_page_of_none hres]
      refine .kept fun r hr => ?_
      rw [(result_for_some hdoc).mpr hr] at hres
      cases hres
  · rw [if_neg hdoc]
    exact .kept (fun r hr => hdoc hr.1)

/-! ### The count -/

/-- Two conditions, one implying the other, count the same when they agree. -/
theorem countP_eq_iff {α : Type} {P Q : α → Bool} {l : List α}
    (himp : ∀ a ∈ l, P a = true → Q a = true) :
    l.countP P = l.countP Q ↔ ∀ a ∈ l, Q a = true → P a = true := by
  induction l with
  | nil => simp
  | cons a l ih =>
    obtain ⟨ha, hl⟩ := List.forall_mem_cons.mp himp
    have hle : l.countP P ≤ l.countP Q := List.countP_mono_left hl
    rw [List.forall_mem_cons, ← ih hl, List.countP_cons, List.countP_cons]
    cases hP : P a with
    | true =>
      have hQ : Q a = true := ha hP
      simp [hQ]
    | false =>
      cases hQ : Q a with
      | false => simp
      | true =>
        simp only [Bool.false_eq_true, if_false, if_true, imp_false, not_true_eq_false, false_and,
          iff_false]
        omega

theorem gained_read {document_id : Uuid} {pages : List OcrPage} {stored : List DocumentPage}
    (hdistinct : stored.Pairwise (fun a b => a.id ≠ b.id)) :
    gained stored (read_pages document_id pages stored) =
      stored.countP (fun p => has_no_text p &&
        has_text (if p.document_id = document_id then filled_page pages p else p).text) := by
  unfold gained
  refine List.countP_congr fun p hp => ?_
  have hid : ∀ p : DocumentPage,
      (if p.document_id = document_id then filled_page pages p else p).id = p.id := by
    intro p
    split <;> simp
  -- after the run, the row under this key is the one it became
  have hrow : (read_pages document_id pages stored).any
      (fun p' => p'.id == p.id && has_text p'.text) =
        has_text (if p.document_id = document_id then filled_page pages p else p).text := by
    rw [Bool.eq_iff_iff, List.any_eq_true]
    constructor
    · rintro ⟨p', hp', hboth⟩
      obtain ⟨p₀, hp₀, rfl⟩ := List.mem_map.mp hp'
      simp only [Bool.and_eq_true, beq_iff_eq, hid] at hboth
      obtain rfl : p₀ = p := Schema.eq_of_pairwise hdistinct hp₀ hp (fun hne => hne hboth.1)
        (fun hne => hne hboth.1.symm)
      exact hboth.2
    · intro htext
      refine ⟨_, List.mem_map_of_mem hp, ?_⟩
      simp only [Bool.and_eq_true, beq_iff_eq, hid]
      exact ⟨trivial, htext⟩
  rw [hrow]

theorem fill_count_eq (document_id : Uuid) (pages : List OcrPage) (stored : List DocumentPage) :
    fill_count pages (pages_in document_id stored) =
      stored.countP (fun p => (result_for pages p).isSome && p.document_id == document_id) := by
  unfold fill_count pages_in
  exact List.countP_filter

/-- The results for the blank pages of the document, as far as there are any, have text. -/
def ResultsHaveText (document_id : Uuid) (pages : List OcrPage) (stored : List DocumentPage) :
    Prop :=
  ∀ p ∈ stored, ∀ r, Fillable document_id pages p r → has_text r.text = true

/-- The count is right exactly when no blank result is written. -/
theorem fill_count_gained {document_id : Uuid} {pages : List OcrPage} {stored : List DocumentPage}
    (hdistinct : stored.Pairwise (fun a b => a.id ≠ b.id)) :
    gained stored (read_pages document_id pages stored) =
        fill_count pages (pages_in document_id stored) ↔
      ResultsHaveText document_id pages stored := by
  rw [gained_read hdistinct, fill_count_eq, countP_eq_iff]
  · refine forall₂_congr fun p hp => ?_
    simp only [Bool.and_eq_true, beq_iff_eq, Option.isSome_iff_exists]
    constructor
    · intro h r hr
      have hres := (result_for_some hr.1).mpr hr
      have hgain := (h ⟨⟨r, hres⟩, hr.1⟩).2
      rw [if_pos hr.1, filled_page_of_result hres] at hgain
      exact hgain
    · rintro h ⟨⟨r, hres⟩, hdoc⟩
      have hr := (result_for_some hdoc).mp hres
      rw [if_pos hdoc, filled_page_of_result hres]
      exact ⟨by simp [has_no_text, hr.2.1], h r hr⟩
  · intro p hp hgain
    simp only [Bool.and_eq_true, has_no_text, Bool.not_eq_true'] at hgain ⊢
    obtain ⟨hblank, hgain⟩ := hgain
    by_cases hdoc : p.document_id = document_id
    · rw [if_pos hdoc] at hgain
      cases hres : result_for pages p with
      | some r => simp [hdoc]
      | none =>
        rw [filled_page_of_none hres, hblank] at hgain
        cases hgain
    · rw [if_neg hdoc, hblank] at hgain
      cases hgain

/-! ### The run -/

section run
variable {document_id : Uuid} {pages : List OcrPage} {s s' : Session} {n : Nat}

theorem run_read (hc : schema.Consistent s.db)
    (hrun : (run_ocr_for_document document_id (fun _ => .ok pages)).exec (perform schema run_ext)
      s = (.ok n, s')) :
    OcrRead document_id pages s.db s'.db ∧
      n = fill_count pages (pages_in document_id (s.db .document_page)) ∧
      ∃ d ∈ s.db .document, Document.id d = document_id := by
  have hspec : wps (run_ocr_for_document document_id (fun _ => .ok pages)) (fun r s' =>
      ∀ n, r = .ok n → OcrRead document_id pages s.db s'.db ∧
        n = fill_count pages (pages_in document_id (s.db .document_page)) ∧
        ∃ d ∈ s.db .document, Document.id d = document_id) s := by
    refine wps_run_ocr_for_document hc (fun e s' _ => ?_) (fun c s' _ => ?_) ?_
    · intro n hn
      cases hn
    · intro n hn
      cases hn
    · rintro d data pages' n s' hd hid _ hread hfilled hn n' hn'
      obtain rfl := Except.ok.inj hread
      obtain rfl := Except.ok.inj hn'
      exact ⟨hfilled, hn, d, hd, hid⟩
  exact wp_exec hspec hrun n rfl

theorem pages_in_filled (stored : List DocumentPage) :
    pages_in document_id (read_pages document_id pages stored) =
      (pages_in document_id stored).map (filled_page pages) := by
  rw [pages_in_read]
  refine List.map_congr_left fun p hp => ?_
  have hdoc : p.document_id = document_id := eq_of_beq (List.mem_filter.mp hp).2
  rw [if_pos hdoc]

/-- Once results with text are in, nothing more is written. -/
theorem read_twice {stored : List DocumentPage}
    (htext : ResultsHaveText document_id pages stored) :
    ∀ p ∈ pages_in document_id (read_pages document_id pages stored),
      result_for pages p = none := by
  intro p hp
  rw [pages_in_filled] at hp
  obtain ⟨p₀, hp₀, rfl⟩ := List.mem_map.mp hp
  obtain ⟨hmem, hdoc⟩ := List.mem_filter.mp hp₀
  have hdoc : p₀.document_id = document_id := eq_of_beq hdoc
  cases hres : result_for pages p₀ with
  | none => rw [filled_page_of_none hres, hres]
  | some r =>
    have hr : has_text r.text = true := htext p₀ hmem r ((result_for_some hdoc).mp hres)
    rw [filled_page_of_result hres]
    unfold result_for
    rw [if_pos hr]

/-- The status is that of the pages as they stand after the run. -/
theorem read_status_eq (stored : List DocumentPage) :
    read_status pages (pages_in document_id stored) =
      if (pages_in document_id (read_pages document_id pages stored)).all
        (fun p => has_text p.text) then .complete else .needs_ocr := by
  rw [pages_in_filled]
  rfl

/-- A run that has nothing to write leaves the rows as they are. -/
theorem read_nothing {db db' : Database} (hfilled : OcrRead document_id pages db db')
    (hnone : ∀ p ∈ pages_in document_id (db .document_page), result_for pages p = none) :
    db' .document_page = db .document_page ∧
      fill_count pages (pages_in document_id (db .document_page)) = 0 := by
  have hsame : ∀ p ∈ pages_in document_id (db .document_page), filled_page pages p = p :=
    fun p hp => filled_page_of_none (hnone p hp)
  constructor
  · rw [hfilled.pages]
    unfold read_pages
    refine (List.map_congr_left fun p hp => ?_).trans (List.map_id' _)
    by_cases hdoc : DocumentPage.document_id p = document_id
    · rw [if_pos hdoc]
      exact hsame p (List.mem_filter.mpr ⟨hp, beq_iff_eq.mpr hdoc⟩)
    · rw [if_neg hdoc]
  · refine List.countP_eq_zero.mpr fun p hp => ?_
    simp [hnone p hp]

/-- After the run the status says whether a page of the document is blank. -/
theorem read_status_complete (stored : List DocumentPage) :
    (read_status pages (pages_in document_id stored) = .complete ∨
      read_status pages (pages_in document_id stored) = .needs_ocr) ∧
    (read_status pages (pages_in document_id stored) = .complete ↔
      ∀ p ∈ read_pages document_id pages stored, p.document_id = document_id →
        has_text p.text = true) := by
  rw [read_status_eq]
  have hall : (pages_in document_id (read_pages document_id pages stored)).all
      (fun p => has_text p.text) = true ↔
        ∀ p ∈ read_pages document_id pages stored, p.document_id = document_id →
          has_text p.text = true := by
    simp only [pages_in, List.all_eq_true, List.mem_filter, beq_iff_eq, and_imp]
  rw [← hall]
  split <;> simp_all

/-- A run over rows that such a run has left. -/
theorem read_again {db db' db'' : Database} (hfirst : OcrRead document_id pages db db')
    (htext : ResultsHaveText document_id pages (db .document_page))
    (hsecond : OcrRead document_id pages db' db'') : db'' = db' := by
  have hnone := read_twice htext
  rw [← hfirst.pages] at hnone
  obtain ⟨hpages, _⟩ := read_nothing hsecond hnone
  have hstatus : read_status pages (pages_in document_id (db' .document_page)) =
      read_status pages (pages_in document_id (db .document_page)) := by
    rw [read_status_eq, read_status_eq, ← hsecond.pages, ← hfirst.pages, hpages]
  funext t
  by_cases hd : Table.document = t
  · subst hd
    rw [hsecond.documents, hstatus, hfirst.documents, set_status_set_status]
  · by_cases hp : Table.document_page = t
    · subst hp
      exact hpages
    · exact hsecond.others t hd hp

/-- With nothing to write, a run returns. -/
theorem run_returns {t : Session} (hup : t.faults = []) (hc : schema.Consistent t.db)
    (hf : schema.Fitting t.db)
    (hstore : ∀ d ∈ t.db .document, Document.id d = document_id →
      ∃ data, (run_ext (Ext.get (Document.storage_key d)) t.ext).1 = .ok data)
    (hthere : ∃ d ∈ t.db .document, Document.id d = document_id)
    (hnone : ∀ p ∈ pages_in document_id (t.db .document_page), result_for pages p = none) :
    ∃ m t', (run_ocr_for_document document_id (fun _ => .ok pages)).exec
      (perform schema run_ext) t = (.ok m, t') := by
  have hrecordable : Recordable pages (pages_in document_id (t.db .document_page)) := by
    intro p hp r hr
    rw [hnone p hp] at hr
    cases hr
  have hspec : wps (run_ocr_for_document document_id (fun _ => .ok pages))
      (fun r _ => ∃ m, r = .ok m) t := by
    refine wps_run_ocr_up hup hc hf ?_ (fun _ _ _ n _ _ _ _ _ _ => ⟨n, rfl⟩) ?_
    · intro c s' hfailed
      generalize s'.db = db' at hfailed
      cases hfailed with
      | not_found missing =>
        obtain ⟨d, hd, hid⟩ := hthere
        exact absurd hid (missing d hd)
      | bytes_missing d mem id e store =>
        obtain ⟨data, hdata⟩ := hstore d mem id
        rw [store] at hdata
        cases hdata
      | engine_unavailable d mem id data store raised => cases raised
      | engine_failed d mem id data store raised => cases raised
    · intro d data pages' v s' _ _ _ hread hnot
      obtain rfl := Except.ok.inj hread
      exact absurd hrecordable hnot
  obtain ⟨m, hm⟩ := wp_exec hspec rfl
  exact ⟨m, _, Prod.ext hm rfl⟩

/-- **A fill is exact when its results have text.** A run that returns writes the last
    result listed for each blank page and touches no other page, and its status says
    whether a page is blank afterwards. It counts the pages that got a text, and a second
    run finds nothing to do, exactly when every result it wrote has text. -/
theorem fill_exact_iff (hc : schema.Consistent s.db) (hf : schema.Fitting s.db)
    (hrun : (run_ocr_for_document document_id (fun _ => .ok pages)).exec (perform schema run_ext)
      s = (.ok n, s')) :
    FillExact document_id pages s s' n ↔
      ∀ p ∈ s.db .document_page, ∀ r, Fillable document_id pages p r → has_text r.text = true := by
  obtain ⟨hfilled, hn, hthere⟩ := run_read hc hrun
  have hdistinct : (s.db .document_page).Pairwise
      (fun a b => DocumentPage.id a ≠ DocumentPage.id b) := hc.distinct .document_page
  have hcount : gained (s.db .document_page) (read_pages document_id pages (s.db .document_page)) =
      fill_count pages (pages_in document_id (s.db .document_page)) ↔
        ResultsHaveText document_id pages (s.db .document_page) := fill_count_gained hdistinct
  rw [← hfilled.pages, ← hn] at hcount
  constructor
  · intro hexact
    exact hcount.mp hexact.count.symm
  · intro htext
    -- with text in every result no page it filled is blank, so a second run has nothing to write
    have hnone : ∀ p ∈ pages_in document_id (s'.db .document_page), result_for pages p = none := by
      rw [hfilled.pages]
      exact read_twice htext
    have hsound : schema.Consistent s'.db ∧ schema.Fitting s'.db := by
      have hc' := exec_consistent (run_ocr_for_document document_id (fun _ => .ok pages)) hc
      have hf' := exec_fitting (run_ocr_for_document document_id (fun _ => .ok pages)) hc hf
      rw [hrun] at hc' hf'
      exact ⟨hc', hf'⟩
    refine ⟨?_, ?_, hfilled.others, (hcount.mpr htext).symm, ?_, ?_⟩
    · rw [hfilled.pages]
      exact List.forall₂_map_right_iff.mpr (List.forall₂_same.mpr fun p _ => page_fill p)
    · refine ⟨_, hfilled.documents, ?_⟩
      rw [hfilled.pages]
      exact read_status_complete _
    · intro t t' m ht hsecond
      obtain ⟨hagain, hm, _⟩ := run_read (by rw [ht]; exact hsound.1) hsecond
      rw [ht] at hagain hm ⊢
      exact ⟨read_again hfilled htext hagain, hm.trans (read_nothing hagain hnone).2⟩
    · intro t ht hup hstore
      refine run_returns hup (by rw [ht]; exact hsound.1) (by rw [ht]; exact hsound.2) hstore ?_ ?_
      · rw [ht, hfilled.documents]
        obtain ⟨d, hd, hid⟩ := hthere
        refine ⟨_, List.mem_map_of_mem hd, ?_⟩
        rw [if_pos hid]
        exact hid
      · rw [ht]
        exact hnone

end run

/-- The run of these results over a scan. -/
def scanned_with (pages : List OcrPage) : Except Exc Nat × Session :=
  (run_ocr_for_document 3#128 (fun _ => .ok pages)).exec (perform schema run_ext)
    (Sample.session Sample.scan)

theorem scan_sound : schema.Consistent (Sample.session Sample.scan).db ∧
    schema.Fitting (Sample.session Sample.scan).db :=
  Sample.sound_of_admissible (by decide +kernel)

def signed_page : List OcrPage := [⟨1, "  ", .finite 0⟩, ⟨1, "signed", .finite (9 / 10)⟩]

theorem signed_page_exact :
    FillExact 3#128 signed_page (Sample.session Sample.scan) (scanned_with signed_page).2 1 := by
  have hrun : (scanned_with signed_page).1 = .ok 1 := by decide +kernel
  refine (fill_exact_iff scan_sound.1 scan_sound.2 (Prod.ext hrun rfl)).mpr ?_
  have htext : ∀ p ∈ Sample.scan .document_page,
      (result_for signed_page p).all (fun r => has_text r.text) = true := by decide +kernel
  intro p hp r hr
  have hall := htext p hp
  rw [(result_for_some hr.1).mpr hr] at hall
  exact hall

/-- The engine finds nothing on the page: the page is counted, and is as blank as before. -/
def blank_result : List OcrPage := [⟨1, "  ", .finite 0⟩]

theorem blank_result_counted :
    (schema.Consistent (Sample.session Sample.scan).db ∧
      schema.Fitting (Sample.session Sample.scan).db) ∧
    (scanned_with blank_result).1 = .ok 1 ∧
    ¬ FillExact 3#128 blank_result (Sample.session Sample.scan) (scanned_with blank_result).2 1 := by
  refine ⟨scan_sound, by decide +kernel, ?_⟩
  intro hexact
  have hgained : gained ((Sample.session Sample.scan).db .document_page)
      ((scanned_with blank_result).2.db .document_page) = 0 := by decide +kernel
  have hcount := hexact.count
  rw [hgained] at hcount
  cases hcount

end CounselReady
