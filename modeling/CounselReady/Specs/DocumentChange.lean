import CounselReady.Framework.Run
import CounselReady.Specs.Ingest

/-! # What a Turn Does to the Documents

    A turn is a step of the server, a call of `ingest_document` by another
    caller, or an OCR run whose failure its caller catches. Whatever the turn,
    the documents, their pages and their jobs change in one of five ways
    (`DocumentChange`).
-/

namespace CounselReady

open Relational Framework Handler Prog

variable {Token : Type} {srv : Server Token}

/-! ### Turns -/

inductive Turn (Token : Type) where
  | step (s : Step Token)
  /-- `ingest_document` in a transaction of its own -/
  | ingest (env : Env) (request : IngestRequest)
  /-- an OCR run whose caller catches an `OcrFailure` and commits -/
  | ocr_caught (env : Env) (document_id : Uuid) (engine : OcrEngine)

def catch_ocr_failure : Exc → Option Nat
  | .ocr_failure _ => some 0
  | _ => none

def Turn.run (srv : Server Token) : Turn Token → Committed → Committed
  | .step s, w => s.run srv w
  | .ingest env request, w => (get_session env (ingest_document srv env request) w).2
  | .ocr_caught env document_id engine, w =>
      (get_session env ((run_ocr_for_document document_id engine).caught catch_ocr_failure) w).2

/-- The turn ingests these bytes, with these surroundings. -/
def Turn.stores : Turn Token → Env → Bytes → Prop
  | .step (.request env ⟨_, .upload_document _ upload⟩), env', data =>
      env' = env ∧ data = upload.data
  | .ingest env request, env', data => env' = env ∧ data = request.data
  | _, _, _ => False

/-- The turn runs this engine over this document. -/
def Turn.reads : Turn Token → Uuid → OcrEngine → Prop
  | .step (.ocr _ document_id engine), id, engine' => id = document_id ∧ engine' = engine
  | .ocr_caught _ document_id engine, id, engine' => id = document_id ∧ engine' = engine
  | _, _, _ => False

/-- A turn as a step relation. -/
def turns (srv : Server Token) (w : Committed) (t : Turn Token) (w' : Committed) : Prop :=
  w' = t.run srv w

/-! ### The five ways -/

/-- Documents may go, with all of their pages; nothing else changes. -/
structure Kept (db db' : Database) : Prop where
  documents : ∀ d ∈ db' .document, d ∈ db .document
  page_rows : ∀ p ∈ db' .document_page, p ∈ db .document_page
  pages : ∀ d ∈ db' .document,
    pages_in (Document.id d) (db' .document_page) = pages_in (Document.id d) (db .document_page)
  jobs : db' .job = db .job

inductive DocumentChange (srv : Server Token) (turn : Turn Token) (db db' : Database) : Prop where
  | unchanged (same : db' = db)
  | kept (env : Env) (req : Request Token) (asked : turn = .step (.request env req))
      (plain : req.route.uploads = false) (h : Kept db db')
  | stored (env : Env) (data : Bytes) (d : Document) (extraction : ExtractionResult)
      (stores : turn.stores env data)
      (read : extract_text_layer srv data default_max_pages default_max_chars_per_page =
        .ok extraction)
      (id : d.id = env.uuid 0) (count : d.page_count = extraction.pages.length)
      (status : d.ocr_status = if extraction.needs_ocr then .needs_ocr else .complete)
      (documents : db' .document = db .document ++ [d])
      (pages : db' .document_page = db .document_page ++ page_rows env d.id extraction.pages)
      (jobs : db' .job = db .job ++ if extraction.needs_ocr then [ocr_job env d.id] else [])
  | marked (document_id : Uuid)
      (documents : db' .document = set_status document_id .processing (db .document))
      (pages : db' .document_page = db .document_page) (jobs : db' .job = db .job)
  | read (document_id : Uuid) (engine : OcrEngine) (data : Bytes) (pages : List OcrPage)
      (reads : turn.reads document_id engine) (result : engine data = .ok pages)
      (filled : OcrRead document_id pages db db')

theorem Kept.refl (db : Database) : Kept db db := ⟨fun _ h => h, fun _ h => h, fun _ _ => rfl, rfl⟩

theorem Kept.of_eq {db db' : Database} (hd : db' .document = db .document)
    (hp : db' .document_page = db .document_page) (hj : db' .job = db .job) : Kept db db' := by
  refine ⟨?_, ?_, ?_, hj⟩
  · intro d hmem
    rwa [← hd]
  · intro p hmem
    rwa [← hp]
  · intro d _
    rw [hp]

theorem Kept.trans {db₀ db₁ db₂ : Database} (h : Kept db₀ db₁) (h' : Kept db₁ db₂) :
    Kept db₀ db₂ where
  documents := fun d hd => h.documents d (h'.documents d hd)
  page_rows := fun p hp => h.page_rows p (h'.page_rows p hp)
  pages := fun d hd => (h'.pages d hd).trans (h.pages d (h'.documents d hd))
  jobs := h'.jobs.trans h.jobs

/-! ### Statements that spare the documents -/

/-- Deletes that start elsewhere, and no INSERT or UPDATE. -/
def spares (wr : Write Row Patch Uuid) : Prop :=
  match wr with
  | .insert t _ => t ≠ .document ∧ t ≠ .document_page ∧ t ≠ .job
  | .update t _ _ => t ≠ .document ∧ t ≠ .document_page ∧ t ≠ .job
  | .delete t _ => t ≠ .document_page ∧ t ≠ .job

/-- A page goes with its document and with nothing else. -/
theorem page_stays {db : Database} (hc : schema.Consistent db) {t₀ : Table} {i₀ : Uuid}
    (ht : t₀ ≠ .document_page) {p : DocumentPage} (hp : p ∈ db .document_page)
    (hstay : (Table.document, p.document_id) ∉ schema.doomed db t₀ i₀) :
    (Table.document_page, p.id) ∉ schema.doomed db t₀ i₀ := by
  intro hgone
  obtain ⟨r, hr, hpk, k, hk, _, j, hj, hdoc⟩ :=
    Schema.doomed_parent hgone (fun heq => ht (Prod.mk.inj heq).1.symm)
  obtain rfl : r = p := hc.eq_of_pk hr hp hpk
  obtain rfl := List.mem_singleton.mp hk
  obtain rfl := Option.some.inj hj
  exact hstay hdoc

theorem kept_statement {db : Database} (hc : schema.Consistent db) {wr : Write Row Patch Uuid}
    (hwr : spares wr) : Kept db (schema.effect (schema.resolve db wr) db) := by
  cases wr with
  | insert t row =>
    obtain ⟨hd, hp, hj⟩ := hwr
    exact .of_eq (Schema.effect_insert_ne _ _ hd) (Schema.effect_insert_ne _ _ hp)
      (Schema.effect_insert_ne _ _ hj)
  | update t id p =>
    obtain ⟨hd, hp, hj⟩ := hwr
    exact .of_eq (Schema.effect_update_ne _ _ _ hd) (Schema.effect_update_ne _ _ _ hp)
      (Schema.effect_update_ne _ _ _ hj)
  | delete t id =>
    obtain ⟨hp, hj⟩ := hwr
    have hrows : ∀ t', schema.Rigid t' → schema.effect (.remove (schema.doomed db t id)) db t' =
        (db t').filter (fun r => decide ((t', row_pk t' r) ∉ schema.doomed db t id)) := by
      intro t' hrigid
      rw [Schema.effect_remove, List.map_congr_left (fun r _ => hrigid _ r), List.map_id']
      rfl
    have hdocs := hrows .document (rigid (by decide))
    have hpages := hrows .document_page (rigid (by decide))
    have hjobs := hrows .job (rigid (by decide))
    refine ⟨?_, ?_, ?_, ?_⟩
    · intro d hd
      rw [Schema.resolve, hdocs] at hd
      exact (List.mem_filter.mp hd).1
    · intro p hp
      rw [Schema.resolve, hpages] at hp
      exact (List.mem_filter.mp hp).1
    · intro d hd
      rw [Schema.resolve, hdocs] at hd
      have hstay : (Table.document, Document.id d) ∉ schema.doomed db t id :=
        of_decide_eq_true (List.mem_filter.mp hd).2
      rw [Schema.resolve, hpages]
      unfold pages_in
      rw [List.filter_filter]
      refine List.filter_congr fun p hmem => ?_
      -- a page goes by a deletion only when its document does
      by_cases hid : DocumentPage.document_id p = Document.id d
      · have hpstay : (Table.document_page, DocumentPage.id p) ∉ schema.doomed db t id :=
          page_stays hc hp hmem (by rw [hid]; exact hstay)
        have hdec : decide ((Table.document_page, row_pk .document_page p) ∉
            schema.doomed db t id) = true := decide_eq_true hpstay
        simp [hid, hdec]
      · simp [hid]
    · -- a job points at nothing, so no cascade reaches it
      rw [Schema.resolve, hjobs, List.filter_eq_self]
      intro j _
      exact decide_eq_true (Schema.not_mem_doomed (Ne.symm hj) (fun k hk => by cases hk))

/-- A request that is no upload issues only statements that spare the documents. -/
theorem spares_of_permits {env : Env} {req : Request Token} (hroute : req.route.uploads = false)
    {wr : Write Row Patch Uuid} (hp : (Step.request env req).permits srv (.write wr)) :
    spares wr := by
  have hno : ∀ {P : Prop}, req.route.uploads = true → P := by
    intro P h
    rw [hroute] at h
    cases h
  cases wr with
  | insert t row =>
    refine ⟨?_, ?_, ?_⟩
    · rintro rfl
      exact hno hp.2.1
    · rintro rfl
      exact hno hp.2
    · rintro rfl
      exact hno hp.2
  | update t id p =>
    refine ⟨?_, ?_, ?_⟩
    · rintro rfl
      exact hp
    · rintro rfl
      exact hp
    · rintro rfl
      exact hp
  | delete t id =>
    refine ⟨?_, ?_⟩
    · rintro rfl
      exact hp
    · rintro rfl
      exact hp

/-! ### What each kind of turn does -/

theorem request_kept {env : Env} {req : Request Token} {w : Committed}
    (hc : schema.Consistent w.db) (hroute : req.route.uploads = false) :
    Kept w.db ((Step.request env req).run srv w).db := by
  let J : Database → Prop := fun db => schema.Consistent db ∧ Kept w.db db
  have hJ : J ((Step.request env req).run srv w).db := by
    refine Step.run_db_invariant ?_ ⟨hc, .refl _⟩
    rintro wr db hp hchk ⟨hcons, hkept⟩
    exact ⟨Schema.consistent_admitted schema_regular hcons hchk,
      hkept.trans (kept_statement hcons (spares_of_permits hroute hp))⟩
  exact hJ.2

/-- The rows of a document that is stored. -/
theorem with_pages_document (env : Env) (d : Document) (extraction : ExtractionResult)
    (pages : List DocumentPage) (db : Database) :
    with_pages env d extraction pages db .document = db .document ++ [d] := by
  unfold with_pages
  rw [inserted_all_ne _ _ (by decide), with_job_ne (by decide), Schema.effect_insert_self]

theorem with_pages_page (env : Env) (d : Document) (extraction : ExtractionResult)
    (pages : List DocumentPage) (db : Database) :
    with_pages env d extraction pages db .document_page = db .document_page ++ pages := by
  unfold with_pages
  rw [inserted_all_self, with_job_ne (by decide), Schema.effect_insert_ne _ _ (by decide)]

theorem with_pages_job (env : Env) (d : Document) (extraction : ExtractionResult)
    (pages : List DocumentPage) (db : Database) :
    with_pages env d extraction pages db .job =
      db .job ++ if extraction.needs_ocr then [ocr_job env d.id] else [] := by
  unfold with_pages with_job
  rw [inserted_all_ne _ _ (by decide)]
  split
  · rw [Schema.effect_insert_self, Schema.effect_insert_ne _ _ (by decide)]
  · rw [Schema.effect_insert_ne _ _ (by decide), List.append_nil]

/-- An upload stores a document with its pages and its job, or changes nothing. -/
theorem upload_change {env : Env} {credentials : Option Token} {case_id : Uuid}
    {upload : Upload} (w : Committed) :
    DocumentChange srv (.step (.request env ⟨credentials, .upload_document case_id upload⟩)) w.db
      ((Step.request env ⟨credentials, .upload_document case_id upload⟩).run srv w).db := by
  rcases @serve_on_cases _ srv env ⟨credentials, .upload_document case_id upload⟩ rfl w with
    ⟨auth, reply, row, db, _, hacc, _, hdb⟩ | ⟨_, hdb⟩
  · have hrun : ((Step.request env ⟨credentials, .upload_document case_id upload⟩).run srv w).db =
        schema.effect (.insert .case_audit_event row) db := hdb
    cases hacc with
    | upload_document _ _ c owned source extraction read =>
      refine .stored env upload.data (uploaded_document srv env case_id upload source extraction)
        extraction ⟨rfl, rfl⟩ read rfl rfl rfl ?_ ?_ ?_
      · rw [hrun, Schema.effect_insert_ne _ _ (by decide), with_pages_document]
      · rw [hrun, Schema.effect_insert_ne _ _ (by decide), with_pages_page]
        rfl
      · rw [hrun, Schema.effect_insert_ne _ _ (by decide), with_pages_job]
  · have hrun : ((Step.request env ⟨credentials, .upload_document case_id upload⟩).run srv w).db =
        w.db := hdb
    exact .unchanged hrun

theorem ingest_change {env : Env} {request : IngestRequest} (w : Committed) :
    DocumentChange srv (.ingest env request : Turn Token) w.db
      ((Turn.ingest env request : Turn Token).run srv w).db := by
  let P : Except Exc Document → Committed → Prop := fun _ w' =>
    DocumentChange srv (.ingest env request : Turn Token) w.db w'.db
  have hkept : DocumentChange srv (.ingest env request : Turn Token) w.db w.db := .unchanged rfl
  have hP : P (get_session env (ingest_document srv env request) w).1
      (get_session env (ingest_document srv env request) w).2 := by
    refine get_session_wps (wps_ingest_document ?_ ?_)
    · intro e s'
      exact hkept
    · intro extraction s' read hs'
      refine ⟨fun _ => ?_, fun _ => hkept⟩
      refine .stored env request.data (ingested srv env request extraction) extraction
        ⟨rfl, rfl⟩ read rfl rfl rfl ?_ ?_ ?_
      · exact (congrFun hs' .document).trans (with_pages_document _ _ _ _ _)
      · exact (congrFun hs' .document_page).trans (with_pages_page _ _ _ _ _)
      · exact (congrFun hs' .job).trans (with_pages_job _ _ _ _ _)
  exact hP

theorem marked_change {turn : Turn Token} (document_id : Uuid) (db : Database) :
    DocumentChange srv turn db (marked document_id db) :=
  .marked document_id (effect_set_status _ _ _) (Schema.effect_update_ne _ _ _ (by decide))
    (Schema.effect_update_ne _ _ _ (by decide))

/-- An OCR run, its failures raised or caught. -/
theorem ocr_change {turn : Turn Token} {env : Env} {document_id : Uuid} {engine : OcrEngine}
    {w : Committed} (hc : schema.Consistent w.db) (hreads : turn.reads document_id engine)
    (f : Exc → Option Nat) (hf : ∀ e, (∀ c, e ≠ .ocr_failure c) → f e = none) :
    DocumentChange srv turn w.db
      (get_session env ((run_ocr_for_document document_id engine).caught f) w).2.db := by
  let P : Except Exc Nat → Committed → Prop := fun _ w' => DocumentChange srv turn w.db w'.db
  have hkept : DocumentChange srv turn w.db w.db := .unchanged rfl
  have hP : P (get_session env ((run_ocr_for_document document_id engine).caught f) w).1
      (get_session env ((run_ocr_for_document document_id engine).caught f) w).2 := by
    refine get_session_wps ((wp_caught _ _).mpr (wps_run_ocr_for_document hc ?_ ?_ ?_))
    · intro e s' hne
      exact (handled_none (hf e hne)).mpr hkept
    · intro c s' hs'
      have hafter : DocumentChange srv turn w.db s'.db := by
        generalize s'.db = db' at hs'
        cases hs' with
        | not_found missing => exact hkept
        | bytes_missing => exact marked_change document_id w.db
        | engine_unavailable => exact marked_change document_id w.db
        | engine_failed => exact marked_change document_id w.db
      cases hcatch : f (.ocr_failure c) with
      | none => exact (handled_none hcatch).mpr hkept
      | some n => exact (handled_some hcatch).mpr ⟨fun _ => hafter, fun _ => hkept⟩
    · intro d data pages n s' _ _ _ hread hfilled _
      exact ⟨fun _ => .read document_id engine data pages hreads hread hfilled, fun _ => hkept⟩
  exact hP

/-- **Whatever the turn, the documents change in one of the five ways.** -/
theorem Turn.document_change (srv : Server Token) {w : Committed} (hc : schema.Consistent w.db)
    (turn : Turn Token) :
    DocumentChange srv turn w.db (turn.run srv w).db := by
  cases turn with
  | ingest env request => exact ingest_change w
  | ocr_caught env document_id engine =>
    have hreads : (Turn.ocr_caught env document_id engine : Turn Token).reads document_id engine :=
      ⟨rfl, rfl⟩
    refine ocr_change hc hreads catch_ocr_failure ?_
    intro e hne
    cases e with
    | ocr_failure c => exact absurd rfl (hne c)
    | _ => rfl
  | step s =>
    cases s with
    | ocr env document_id engine =>
      have hreads : (Turn.step (.ocr env document_id engine) : Turn Token).reads document_id
          engine := ⟨rfl, rfl⟩
      have hocr := @ocr_change _ srv _ env _ _ w hc hreads (fun _ => none) (fun _ _ => rfl)
      rw [caught_none] at hocr
      exact hocr
    | request env req =>
      cases hroute : req.route.uploads with
      | false => exact .kept env req rfl hroute (request_kept hc hroute)
      | true =>
        obtain ⟨credentials, route⟩ := req
        cases route with
        | upload_document case_id upload => exact upload_change w
        | _ => cases hroute

/-- A turn keeps the constraints of the schema. -/
theorem Turn.sound (srv : Server Token) {w : Committed} (hc : schema.Consistent w.db)
    (turn : Turn Token) :
    schema.Consistent (turn.run srv w).db ∧
      (schema.Fitting w.db → schema.Fitting (turn.run srv w).db) := by
  cases turn with
  | ingest env request => exact get_session_sound _ _ hc
  | ocr_caught env document_id engine => exact get_session_sound _ _ hc
  | step s =>
    cases s with
    | request env req => exact get_session_sound _ _ hc
    | ocr env document_id engine => exact get_session_sound _ _ hc

theorem Turn.consistent (srv : Server Token) {w : Committed} (hc : schema.Consistent w.db)
    (turn : Turn Token) :
    schema.Consistent (turn.run srv w).db := (turn.sound srv hc).1

theorem turns_sound {may : List (Turn Token × Committed) → Committed → Turn Token → Prop}
    {past : List (Turn Token × Committed)} {w : Committed}
    (hr : Run (turns srv) may .empty past w) : schema.Consistent w.db ∧ schema.Fitting w.db := by
  refine hr.invariant (I := fun _ w => schema.Consistent w.db ∧ schema.Fitting w.db)
    ⟨Schema.consistent_empty, ?_⟩ ?_
  · intro t r hr
    cases hr
  · rintro past w turn w' _ ⟨hc, hf⟩ _ rfl
    have hsound := turn.sound srv hc
    exact ⟨hsound.1, hsound.2 hf⟩

theorem turns_consistent {may : List (Turn Token × Committed) → Committed → Turn Token → Prop}
    {past : List (Turn Token × Committed)} {w : Committed}
    (hr : Run (turns srv) may .empty past w) : schema.Consistent w.db := (turns_sound hr).1

/-- The run of these turns, latest first. -/
def played (srv : Server Token) : List (Turn Token) → List (Turn Token × Committed) × Committed :=
  trail (Turn.run srv) .empty

theorem run_played (srv : Server Token) (script : List (Turn Token)) :
    Run (turns srv) unrestricted .empty (played srv script).1 (played srv script).2 :=
  run_trail _ _ script

end CounselReady
