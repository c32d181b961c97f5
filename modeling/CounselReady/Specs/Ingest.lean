import CounselReady.Specs.CaseFile

/-! # What Ingest and OCR Do to a Document

    `ingest_document` writes a document, its job and its pages, or fails.
    `run_ocr_for_document` fills the blank pages it has a result for and sets
    the status, or fails with the status left at `processing`.
-/

namespace CounselReady

open Relational Framework Handler Prog

variable {Token : Type} {srv : Server Token} {env : Env} {s : Session}

/-! ### Ingest -/

/-- The document row of an ingest. -/
def ingested (srv : Server Token) (env : Env) (request : IngestRequest)
    (extraction : ExtractionResult) : Document :=
  new_document env request (storage_key request.case_id.str (content_hash srv request.data))
    (content_hash srv request.data) extraction

theorem wps_ingest_document {request : IngestRequest} {Q : Except Exc Document → Session → Prop}
    (herr : ∀ e s', Q (.error e) s')
    (hok : ∀ extraction s', extract_text_layer srv request.data default_max_pages
        default_max_chars_per_page = .ok extraction →
      s'.db = with_pages env (ingested srv env request extraction) extraction
        (page_rows env (env.uuid 0) extraction.pages) s.db →
      Q (.ok (ingested srv env request extraction)) s') :
    wps (ingest_document srv env request) Q s := by
  refine wps_select_one_bind (herr _ _) (fun _ => ?_) fun existing _ _ _ => ?_
  swap
  · exact (wp_raise _).mpr (herr _ _)
  refine wps_bind (wps_bind (wp_perform_ext.mpr ?_))
  by_cases hworks : s.ext.outcome = .works
  swap
  · simp only [run_ext, if_neg hworks]
    exact (wp_raise _).mpr (herr _ _)
  simp only [run_ext, if_pos hworks]
  refine (wp_pure _).mpr (wps_bind (wps_ok_or.mpr ?_))
  cases hread : extract_text_layer srv request.data default_max_pages
      default_max_chars_per_page with
  | error e => exact herr _ _
  | ok extraction =>
    refine wps_bind (wps_execute_bind (fun _ => herr _ _) fun _ => ?_)
    refine wps_bind (wps_queue_ocr (fun _ _ _ _ => herr _ _) (fun _ _ _ _ => herr _ _)
      fun faults _ => ?_)
    refine wps_insert_all (fun _ _ _ _ => herr _ _) (fun _ _ _ _ _ _ _ _ => herr _ _)
      fun faults' _ => ?_
    exact (wp_pure _).mpr (hok extraction _ hread rfl)

/-! ### Filling pages -/

def set_status (document_id : Uuid) (status : OcrStatus) (documents : List Document) :
    List Document :=
  documents.map (fun d => if d.id = document_id then { d with ocr_status := status } else d)

/-- The pages of a document once the results for it are in. -/
def read_pages (document_id : Uuid) (pages : List OcrPage) (stored : List DocumentPage) :
    List DocumentPage :=
  stored.map (fun p => if p.document_id = document_id then filled_page pages p else p)

def pages_in (document_id : Uuid) (stored : List DocumentPage) : List DocumentPage :=
  stored.filter (fun p => p.document_id == document_id)

def read_status (pages : List OcrPage) (stored : List DocumentPage) : OcrStatus :=
  if (stored.map (filled_page pages)).all (fun p => has_text p.text) then .complete else .needs_ocr

/-- The result written to a stored page: none when the page has text of its own. -/
def result_for (pages : List OcrPage) (p : DocumentPage) : Option OcrPage :=
  if has_text p.text then none else by_number pages p.page_number

/-- How many pages a result is written to. -/
def fill_count (pages : List OcrPage) (stored : List DocumentPage) : Nat :=
  stored.countP (fun p => (result_for pages p).isSome)

/-- The statements of `fill_pages`, one after another. -/
def filled_all (pages : List OcrPage) : List DocumentPage → Database → Database
  | [], db => db
  | stored :: rest, db =>
      if has_text stored.text then filled_all pages rest db
      else
        match by_number pages stored.page_number with
        | none => filled_all pages rest db
        | some result => filled_all pages rest (schema.effect
            (.update .document_page stored.id (.fill result.text result.confidence)) db)

theorem wps_fill_pages {pages : List OcrPage} {stored : List DocumentPage}
    {Q : Except Exc Nat → Session → Prop} (herr : ∀ v s', Q (.error (.database v)) s')
    (hok : ∀ faults, Q (.ok (fill_count pages stored))
      { s with db := filled_all pages stored s.db, faults := faults }) :
    wps (fill_pages pages stored) Q s := by
  induction stored generalizing s Q with
  | nil => exact (wp_pure _).mpr (hok s.faults)
  | cons page rest ih =>
    have hcount : fill_count pages (page :: rest) =
        fill_count pages rest + if (result_for pages page).isSome then 1 else 0 :=
      List.countP_cons
    rw [hcount] at hok
    unfold fill_pages
    unfold filled_all at hok
    unfold result_for at hok
    by_cases htext : has_text page.text = true
    · simp only [if_pos htext] at hok ⊢
      exact ih herr hok
    · simp only [if_neg htext] at hok ⊢
      cases hres : by_number pages page.page_number with
      | none =>
        simp only [hres] at hok
        exact ih herr hok
      | some result =>
        simp only [hres] at hok
        refine wps_execute_bind (fun v => herr v _) fun _ => ?_
        refine wps_bind (ih (fun v s' => herr v s') fun faults => ?_)
        exact (wp_pure _).mpr (hok faults)

theorem filled_all_ne {pages : List OcrPage} {stored : List DocumentPage} {db : Database}
    {t : Table} (ht : .document_page ≠ t) : filled_all pages stored db t = db t := by
  induction stored generalizing db with
  | nil => rfl
  | cons page rest ih =>
    unfold filled_all
    split
    · exact ih
    · cases by_number pages page.page_number with
      | none => exact ih
      | some result => exact ih.trans (Schema.effect_update_ne _ _ _ ht)

/-- A page that is not blank, or has no result, stays. -/
theorem filled_page_eq {pages : List OcrPage} {p : DocumentPage}
    (h : has_text p.text = true ∨ by_number pages p.page_number = none) :
    filled_page pages p = p := by
  unfold filled_page
  rcases h with htext | hnone
  · rw [if_pos htext]
  · rw [hnone]
    split <;> rfl

theorem filled_page_some {pages : List OcrPage} {p : DocumentPage} {result : OcrPage}
    (hblank : has_text p.text ≠ true) (hres : by_number pages p.page_number = some result) :
    filled_page pages p = PagePatch.apply (.fill result.text result.confidence) p := by
  unfold filled_page
  rw [if_neg hblank, hres]

@[simp] theorem id_filled_page (pages : List OcrPage) (p : DocumentPage) :
    (filled_page pages p).id = p.id := by
  unfold filled_page
  repeat' split
  all_goals rfl

@[simp] theorem document_id_filled_page (pages : List OcrPage) (p : DocumentPage) :
    (filled_page pages p).document_id = p.document_id := by
  unfold filled_page
  repeat' split
  all_goals rfl

@[simp] theorem page_number_filled_page (pages : List OcrPage) (p : DocumentPage) :
    (filled_page pages p).page_number = p.page_number := by
  unfold filled_page
  repeat' split
  all_goals rfl

/-- Each of the pages looked at is filled, and no other page changes. The
    induction is on the pages still to be looked at. -/
theorem filled_all_pages {pages : List OcrPage} {stored : List DocumentPage} {db : Database}
    (hdistinct : (db .document_page).Pairwise
      (fun a b => DocumentPage.id a ≠ DocumentPage.id b))
    (hstored : stored.Pairwise (fun a b => a.id ≠ b.id))
    (hsub : ∀ p ∈ stored, p ∈ db .document_page) :
    filled_all pages stored db .document_page =
      (db .document_page).map (fun p => if p ∈ stored then filled_page pages p else p) := by
  induction stored generalizing db with
  | nil =>
    show db .document_page = _
    simp
  | cons page rest ih =>
    obtain ⟨hpage, hrest⟩ := List.pairwise_cons.mp hstored
    have hmem : page ∈ db .document_page := hsub page List.mem_cons_self
    have hsub' : ∀ p ∈ rest, p ∈ db .document_page :=
      fun p hp => hsub p (List.mem_cons_of_mem _ hp)
    -- one key, one row
    have hone : ∀ p ∈ db .document_page, DocumentPage.id p = page.id → p = page := by
      intro p hp hid
      exact Schema.eq_of_pairwise hdistinct hp hmem (fun hne => hne hid) (fun hne => hne hid.symm)
    unfold filled_all
    by_cases hskip : has_text page.text = true ∨ by_number pages page.page_number = none
    · have hsame : filled_page pages page = page := filled_page_eq hskip
      have hall : (if has_text page.text = true then filled_all pages rest db
          else match by_number pages page.page_number with
            | none => filled_all pages rest db
            | some result => filled_all pages rest (schema.effect
                (.update .document_page page.id (.fill result.text result.confidence)) db)) =
          filled_all pages rest db := by
        rcases hskip with htext | hnone
        · rw [if_pos htext]
        · rw [hnone]
          split <;> rfl
      rw [hall, ih hdistinct hrest hsub']
      refine List.map_congr_left fun p _ => ?_
      by_cases heq : p = page
      · subst heq
        simp [hsame]
      · simp [heq]
    · obtain ⟨htext, hsome⟩ := not_or.mp hskip
      obtain ⟨result, hres⟩ := Option.ne_none_iff_exists'.mp hsome
      have hfill := filled_page_some htext hres
      rw [if_neg htext, hres]
      dsimp only
      have htable : schema.effect
          (.update .document_page page.id (.fill result.text result.confidence)) db
            .document_page =
          (db .document_page).map (fun p => if p = page then filled_page pages p else p) := by
        rw [Schema.effect_update_self]
        refine List.map_congr_left fun p hp => ?_
        by_cases heq : p = page
        · subst heq
          rw [if_pos rfl, hfill]
          exact Schema.patched_of_eq rfl
        · rw [if_neg heq]
          exact Schema.patched_of_ne (fun hid => heq (hone p hp hid))
      have hids : ∀ p, DocumentPage.id (if p = page then filled_page pages p else p) = p.id := by
        intro p
        split <;> simp
      rw [ih ?_ hrest ?_, htable, List.map_map]
      · refine List.map_congr_left fun p hp => ?_
        by_cases heq : p = page
        · subst heq
          -- it is not looked at again
          have hnot : filled_page pages p ∉ rest := by
            intro hin
            exact hpage _ hin (id_filled_page pages p).symm
          simp [hnot]
        · simp [heq]
      · rw [htable, List.pairwise_map]
        refine hdistinct.imp ?_
        intro a b hab
        rw [hids, hids]
        exact hab
      · intro p hp
        have hne : p ≠ page := by
          rintro rfl
          exact hpage p hp rfl
        rw [htable]
        exact List.mem_map.mpr ⟨p, hsub' p hp, by rw [if_neg hne]⟩

/-! ### The OCR step -/

theorem effect_set_status (db : Database) (document_id : Uuid) (status : OcrStatus) :
    schema.effect (.update .document document_id (.set_ocr_status status)) db .document =
      set_status document_id status (db .document) := Schema.effect_update_self _ _ _ _

theorem set_status_set_status (document_id : Uuid) (a b : OcrStatus) (documents : List Document) :
    set_status document_id b (set_status document_id a documents) =
      set_status document_id b documents := by
  unfold set_status
  rw [List.map_map]
  refine List.map_congr_left fun d _ => ?_
  by_cases hid : d.id = document_id <;> simp [hid]

/-- The rows while the engine reads. -/
def marked (document_id : Uuid) (db : Database) : Database :=
  schema.effect (.update .document document_id (.set_ocr_status .processing)) db

/-- The rows once the engine's pages are in. -/
structure OcrRead (document_id : Uuid) (pages : List OcrPage) (db db' : Database) : Prop where
  documents : db' .document = set_status document_id
    (read_status pages (pages_in document_id (db .document_page))) (db .document)
  pages : db' .document_page = read_pages document_id pages (db .document_page)
  others : ∀ t, .document ≠ t → .document_page ≠ t → db' t = db t

/-- The statements of a successful run, one after another. -/
theorem ocrRead_of_fill {db : Database} (hc : schema.Consistent db) (document_id : Uuid)
    (pages : List OcrPage) :
    OcrRead document_id pages db (schema.effect (.update .document document_id (.set_ocr_status
        (if ((pages_in document_id (marked document_id db .document_page)).map
          (filled_page pages)).all (fun p => has_text p.text) then .complete else .needs_ocr)))
      (filled_all pages (pages_in document_id (marked document_id db .document_page))
        (marked document_id db))) := by
  have hpages : marked document_id db .document_page = db .document_page :=
    Schema.effect_update_ne _ _ _ (by decide)
  rw [hpages]
  refine ⟨?_, ?_, ?_⟩
  · rw [effect_set_status, filled_all_ne (by decide), marked, effect_set_status,
      set_status_set_status]
    rfl
  · have hdistinct : (db .document_page).Pairwise
        (fun a b => DocumentPage.id a ≠ DocumentPage.id b) := hc.distinct .document_page
    rw [Schema.effect_update_ne _ _ _ (by decide), filled_all_pages, hpages]
    · refine List.map_congr_left fun p hp => ?_
      have hin : p ∈ pages_in document_id (db .document_page) ↔ p.document_id = document_id := by
        unfold pages_in
        simp [hp]
      simp only [hin]
    · rwa [hpages]
    · exact hdistinct.filter _
    · intro p hp
      rw [hpages]
      exact (List.mem_filter.mp hp).1
  · intro t hd hp
    rw [Schema.effect_update_ne _ _ _ hd, filled_all_ne hp]
    exact Schema.effect_update_ne _ _ _ hd

/-- The run raises an `OcrFailure`, and leaves these rows to its caller. -/
inductive OcrFailed (document_id : Uuid) (engine : OcrEngine) (s : Session) :
    OcrErrorClass → Database → Prop where
  | not_found (missing : ∀ d ∈ s.db .document, Document.id d ≠ document_id) :
      OcrFailed document_id engine s .document_not_found s.db
  | bytes_missing (d : Document) (mem : d ∈ s.db .document) (id : d.id = document_id)
      (e : StoreError) (store : (run_ext (Ext.get d.storage_key) s.ext).1 = .error e) :
      OcrFailed document_id engine s .document_bytes_missing (marked document_id s.db)
  | engine_unavailable (d : Document) (mem : d ∈ s.db .document) (id : d.id = document_id)
      (data : Bytes) (store : (run_ext (Ext.get d.storage_key) s.ext).1 = .ok data)
      (raised : engine data = .error .unavailable) :
      OcrFailed document_id engine s .ocr_engine_unavailable (marked document_id s.db)
  | engine_failed (d : Document) (mem : d ∈ s.db .document) (id : d.id = document_id)
      (data : Bytes) (store : (run_ext (Ext.get d.storage_key) s.ext).1 = .ok data)
      (raised : engine data = .error .failed) :
      OcrFailed document_id engine s .ocr_engine_failed (marked document_id s.db)

theorem wps_run_ocr_for_document {document_id : Uuid} {engine : OcrEngine}
    (hc : schema.Consistent s.db) {Q : Except Exc Nat → Session → Prop}
    (herr : ∀ e s', (∀ c, e ≠ .ocr_failure c) → Q (.error e) s')
    (hfailed : ∀ c s', OcrFailed document_id engine s c s'.db → Q (.error (.ocr_failure c)) s')
    (hok : ∀ d data pages n s', d ∈ s.db .document → Document.id d = document_id →
      (run_ext (Ext.get (Document.storage_key d)) s.ext).1 = .ok data →
      engine data = .ok pages → OcrRead document_id pages s.db s'.db →
      n = fill_count pages (pages_in document_id (s.db .document_page)) → Q (.ok n) s') :
    wps (run_ocr_for_document document_id engine) Q s := by
  have hdb : ∀ v s', Q (.error (.database v)) s' := fun v s' => herr _ s' (by simp)
  refine wps_select_one_bind (herr _ _ (by simp)) (fun hnone => ?_) fun d hd hid _ => ?_
  · refine (wp_raise _).mpr (hfailed _ _ (.not_found ?_))
    intro d hd hid
    have hno := hnone d hd
    simp [hid] at hno
  have hid : Document.id d = document_id := by simpa using hid
  subst hid
  refine wps_execute_bind (fun v => hdb v _) fun _ => ?_
  refine wps_bind (wp_perform_ext.mpr ?_)
  -- what the store answers
  cases hgot : (run_ext (Ext.get d.storage_key) s.ext).1 with
  | error e => exact (wp_raise _).mpr (hfailed _ _ (.bytes_missing d hd rfl e hgot))
  | ok data =>
    rw [after_ok]
    dsimp only
    split
    · next hread => exact (wp_raise _).mpr (hfailed _ _ (.engine_unavailable d hd rfl data hgot hread))
    · next hread => exact (wp_raise _).mpr (hfailed _ _ (.engine_failed d hd rfl data hgot hread))
    · next pages hread =>
      refine wps_select_bind (wps_bind (wps_fill_pages (fun v s' => hdb v s') fun faults => ?_))
      refine wps_execute_bind (fun v => hdb v _) fun _ => (wp_pure _).mpr ?_
      have hpages : schema.effect (.update .document d.id (.set_ocr_status .processing)) s.db
          .document_page = s.db .document_page := Schema.effect_update_ne _ _ _ (by decide)
      exact hok d data pages _ _ hd rfl hgot hread (ocrRead_of_fill hc d.id pages)
        (congrArg (fun stored => fill_count pages (pages_in d.id stored)) hpages)

/-! ### A database that is up

    No statement fails for reasons of its own: the constraints alone decide. -/

/-- The page table admits each result that is written. -/
def Recordable (pages : List OcrPage) (stored : List DocumentPage) : Prop :=
  ∀ p ∈ stored, ∀ r, result_for pages p = some r →
    r.confidence.is_fraction = true ∧ storable r.text = true

theorem wps_execute_up {α : Type} {w : Write Row Patch Uuid} {f : Unit → Handler α}
    {Q : Except Exc α → Session → Prop} (hup : s.faults = []) (hchk : schema.check s.db w = none)
    (h : wps (f ()) Q { s with db := schema.effect (schema.resolve s.db w) s.db }) :
    wps (execute .database w >>= f) Q s := by
  refine wps_bind ((wp_execute_clean hup).mpr ?_)
  rw [hchk]
  exact h

theorem check_set_status {db : Database} (hc : schema.Consistent db) (hf : schema.Fitting db)
    {d : Document} (hd : d ∈ db .document) (status : OcrStatus) :
    schema.check db (.update .document d.id (.set_ocr_status status)) = none := by
  have hdecided : schema.check db (.update .document d.id (.set_ocr_status status)) =
      schema.fits .document (schema.apply .document (.set_ocr_status status) d) :=
    Schema.check_update_eq schema_regular hc hd (fun _ => rfl)
  rw [hdecided]
  exact hf .document d hd

/-- The text and the CHECK on the confidence are what a result can break. -/
theorem check_fill {db : Database} (hc : schema.Consistent db) (hf : schema.Fitting db)
    {p : DocumentPage} (hp : p ∈ db .document_page) (text : String) (confidence : Confidence) :
    schema.check db (.update .document_page p.id (.fill text confidence)) =
      columns true (storable text) confidence.is_fraction := by
  have hnum : (1 : Int) ≤ p.page_number := by
    have hfits : row_fits .document_page p = none := hf .document_page p hp
    have hchecks := (columns_none.mp hfits).2.2
    rw [Bool.and_eq_true] at hchecks
    exact of_decide_eq_true hchecks.1
  have hdecided : schema.check db (.update .document_page p.id (.fill text confidence)) =
      schema.fits .document_page (schema.apply .document_page (.fill text confidence) p) :=
    Schema.check_update_eq schema_regular hc hp (fun _ => rfl)
  rw [hdecided]
  simp [schema, row_fits, row_apply, PagePatch.apply, hnum]

/-- The pages are filled when every result to be written is admitted, else the
    database refuses one. The induction is on the pages still to be looked at. -/
theorem wps_fill_pages_up {pages : List OcrPage} {stored : List DocumentPage}
    {Q : Except Exc Nat → Session → Prop} (hup : s.faults = []) (hc : schema.Consistent s.db)
    (hf : schema.Fitting s.db) (hstored : stored.Pairwise (fun a b => a.id ≠ b.id))
    (hsub : ∀ p ∈ stored, p ∈ s.db .document_page)
    (hok : Recordable pages stored → schema.Consistent (filled_all pages stored s.db) →
      schema.Fitting (filled_all pages stored s.db) →
      Q (.ok (fill_count pages stored)) { s with db := filled_all pages stored s.db })
    (hbad : ¬ Recordable pages stored → ∀ v s', Q (.error (.database v)) s') :
    wps (fill_pages pages stored) Q s := by
  induction stored generalizing s Q with
  | nil =>
    refine (wp_pure _).mpr (hok ?_ hc hf)
    intro p hp
    cases hp
  | cons page rest ih =>
    obtain ⟨hpage, hrest⟩ := List.pairwise_cons.mp hstored
    have hmem : page ∈ s.db .document_page := hsub page List.mem_cons_self
    have hsub' : ∀ p ∈ rest, p ∈ s.db .document_page :=
      fun p hp => hsub p (List.mem_cons_of_mem _ hp)
    have hrecordable : Recordable pages (page :: rest) ↔
        (∀ r, result_for pages page = some r →
          r.confidence.is_fraction = true ∧ storable r.text = true) ∧
            Recordable pages rest := List.forall_mem_cons
    have hcount : fill_count pages (page :: rest) =
        fill_count pages rest + if (result_for pages page).isSome then 1 else 0 :=
      List.countP_cons
    rw [hcount, hrecordable] at hok
    rw [hrecordable] at hbad
    unfold fill_pages
    unfold filled_all at hok
    unfold result_for at hok hbad
    by_cases htext : has_text page.text = true
    · simp only [if_pos htext, reduceCtorEq, false_implies, implies_true, true_and] at hok hbad ⊢
      exact ih hup hc hf hrest hsub' hok hbad
    · simp only [if_neg htext] at hok hbad ⊢
      cases hres : by_number pages page.page_number with
      | none =>
        simp only [hres, reduceCtorEq, false_implies, implies_true, true_and] at hok hbad
        exact ih hup hc hf hrest hsub' hok hbad
      | some result =>
        simp only [hres, Option.some.injEq, forall_eq'] at hok hbad
        have hchk := check_fill hc hf hmem result.text result.confidence
        by_cases hadmitted : result.confidence.is_fraction = true ∧ storable result.text = true
        · rw [columns_none.mpr ⟨rfl, hadmitted.2, hadmitted.1⟩] at hchk
          simp only [hadmitted, and_self, true_and] at hok hbad
          refine wps_execute_up hup hchk ?_
          -- the pages still to come are as they were
          have hcome : ∀ p ∈ rest, p ∈ schema.effect (schema.resolve s.db
              (.update .document_page page.id (.fill result.text result.confidence))) s.db
                .document_page := by
            intro p hp
            have hne : schema.pk .document_page p ≠ page.id := fun heq => hpage p hp heq.symm
            exact Schema.mem_effect_update.mpr ⟨p, hsub' p hp, Schema.patched_of_ne hne⟩
          refine wps_bind (ih hup (Schema.consistent_admitted schema_regular hc hchk)
            (hf.admitted schema_clearable hc hchk) hrest hcome ?_ ?_)
          · intro hm hc' hf'
            exact (wp_pure _).mpr (hok hm hc' hf')
          · intro hm v s'
            exact hbad hm v s'
        · obtain ⟨v, hv⟩ : ∃ v, columns true (storable result.text)
              result.confidence.is_fraction = some v := by
            refine Option.ne_none_iff_exists'.mp fun hnone => hadmitted ?_
            exact ⟨(columns_none.mp hnone).2.2, (columns_none.mp hnone).2.1⟩
          refine wps_bind ((wp_execute_clean hup).mpr ?_)
          rw [hchk, hv]
          exact hbad (fun hboth => hadmitted hboth.1) v _

/-- A run that is given pages returns exactly when the results to be written are
    admitted. -/
theorem wps_run_ocr_up {document_id : Uuid} {engine : OcrEngine} (hup : s.faults = [])
    (hc : schema.Consistent s.db) (hf : schema.Fitting s.db) {Q : Except Exc Nat → Session → Prop}
    (hfailed : ∀ c s', OcrFailed document_id engine s c s'.db → Q (.error (.ocr_failure c)) s')
    (hok : ∀ d data pages n s', d ∈ s.db .document → Document.id d = document_id →
      (run_ext (Ext.get (Document.storage_key d)) s.ext).1 = .ok data → engine data = .ok pages →
      Recordable pages (pages_in document_id (s.db .document_page)) → Q (.ok n) s')
    (hbad : ∀ d data pages v s', d ∈ s.db .document → Document.id d = document_id →
      (run_ext (Ext.get (Document.storage_key d)) s.ext).1 = .ok data → engine data = .ok pages →
      ¬ Recordable pages (pages_in document_id (s.db .document_page)) →
      Q (.error (.database v)) s') :
    wps (run_ocr_for_document document_id engine) Q s := by
  have hone : ((s.db .document).filter (fun d : Document => d.id == document_id)).length ≤ 1 :=
    hc.select_one (t := .document) (p := fun d : Document => d.id == document_id)
      (fun _ hd => eq_of_beq hd)
  refine wps_bind (wps_select_one (fun hnone => ?_) (fun d hd hid _ => ?_) fun hmany => ?_)
  · refine (wp_raise _).mpr (hfailed _ _ (.not_found ?_))
    intro d hd hid
    have hno := hnone d hd
    simp [hid] at hno
  swap
  · exact absurd hone (Nat.not_le.mpr hmany)
  have hid : Document.id d = document_id := by simpa using hid
  subst hid
  have hmark := check_set_status hc hf hd .processing
  refine wps_execute_up hup hmark (wps_bind (wp_perform_ext.mpr ?_))
  cases hgot : (run_ext (Ext.get d.storage_key) s.ext).1 with
  | error e =>
    exact (wp_raise _).mpr (hfailed _ _ (.bytes_missing d hd rfl e hgot))
  | ok data =>
    rw [after_ok]
    dsimp only
    split
    · next hread =>
      exact (wp_raise _).mpr (hfailed _ _ (.engine_unavailable d hd rfl data hgot hread))
    · next hread =>
      exact (wp_raise _).mpr (hfailed _ _ (.engine_failed d hd rfl data hgot hread))
    · next pages hread =>
      have hpages : marked d.id s.db .document_page = s.db .document_page :=
        Schema.effect_update_ne _ _ _ (by decide)
      have hcm : schema.Consistent (marked d.id s.db) :=
        Schema.consistent_admitted schema_regular hc hmark
      have hfm : schema.Fitting (marked d.id s.db) := hf.admitted schema_clearable hc hmark
      have hdistinct : (marked d.id s.db .document_page).Pairwise
          (fun a b => DocumentPage.id a ≠ DocumentPage.id b) := hcm.distinct .document_page
      refine wps_select_bind (wps_bind (wps_fill_pages_up hup hcm hfm (hdistinct.filter _) ?_ ?_ ?_))
      · intro p hp
        exact (List.mem_filter.mp hp).1
      · intro hm hc' hf'
        have hm : Recordable pages (pages_in d.id (s.db .document_page)) := by
          rwa [← hpages]
        -- the document is still there
        have hstill : DocumentPatch.apply (.set_ocr_status .processing) d ∈
            filled_all pages (pages_in d.id (marked d.id s.db .document_page))
              (marked d.id s.db) .document := by
          rw [filled_all_ne (by decide)]
          exact Schema.mem_effect_update.mpr ⟨d, hd, Schema.patched_of_eq rfl⟩
        refine wps_execute_up hup (check_set_status hc' hf' hstill _) ?_
        exact (wp_pure _).mpr (hok d data pages _ _ hd rfl hgot hread hm)
      · intro hm v s'
        refine hbad d data pages v s' hd rfl hgot hread ?_
        rwa [← hpages]

end CounselReady
