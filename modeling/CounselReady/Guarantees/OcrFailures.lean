import CounselReady.Guarantees.JobQueue
import CounselReady.Guarantees.OcrFill

/-! # What an OCR Failure Leaves Behind

    An OCR attempt fails with one of four declared classes, or lets the
    database's refusal of a result through.

    It sets the status to `processing` before it asks the store and the engine,
    and a failure does not take that back. A caller that goes on to record the
    failure in the same session commits the document as it stands.
-/

namespace CounselReady

open Relational Framework Handler Prog

variable {Token : Type} {srv : Server Token}

/-! ### The vocabulary of failures -/

/-- A count, or a failure of the closed vocabulary. -/
def Classified (r : Except Exc Nat) : Prop :=
  (∃ n, r = .ok n) ∨ ∃ c, r = .error (.ocr_failure c)

section vocabulary
variable {document_id : Uuid} {engine : OcrEngine} {s : Session}

/-- One document under one id. -/
theorem document_unique (hc : schema.Consistent s.db) {d d' : Document} (hd : d ∈ s.db .document)
    (hd' : d' ∈ s.db .document) (hid : d.id = document_id) (hid' : d'.id = document_id) :
    d = d' := by
  have hpk : schema.pk .document d = schema.pk .document d' := hid.trans hid'.symm
  exact hc.eq_of_pk hd hd' hpk

end vocabulary

/-- The status of every document, and the text and confidence of every page, are as
    they were. -/
structure Untouched (s s' : Session) : Prop where
  documents : s'.db .document = s.db .document
  pages : s'.db .document_page = s.db .document_page

theorem set_status_eq_self {document_id : Uuid} {status : OcrStatus} {documents : List Document} :
    set_status document_id status documents = documents ↔
      ∀ d ∈ documents, d.id = document_id → d.ocr_status = status := by
  unfold set_status
  induction documents with
  | nil => simp
  | cons d documents ih =>
    rw [List.map_cons, List.cons.injEq, List.forall_mem_cons, ih]
    refine and_congr_left fun _ => ?_
    by_cases hid : d.id = document_id
    · rw [if_pos hid]
      constructor
      · intro heq _
        exact (congrArg Document.ocr_status heq).symm
      · intro hstatus
        rw [← hstatus hid]
    · simp [hid]

section failure
variable {document_id : Uuid} {engine : OcrEngine} {s s' : Session} {c : OcrErrorClass}

theorem run_failed (hc : schema.Consistent s.db)
    (hrun : (run_ocr_for_document document_id engine).exec (perform schema run_ext) s =
      (.error (.ocr_failure c), s')) : OcrFailed document_id engine s c s'.db := by
  have hspec : wps (run_ocr_for_document document_id engine) (fun r s' =>
      ∀ c, r = .error (.ocr_failure c) → OcrFailed document_id engine s c s'.db) s := by
    refine wps_run_ocr_for_document hc ?_ ?_ ?_
    · intro e s' hne c he
      exact absurd (Except.error.inj he) (hne c)
    · intro c s' hfailed c' hc'
      obtain rfl := Exc.ocr_failure.inj (Except.error.inj hc')
      exact hfailed
    · intro d data pages n s' _ _ _ _ _ _ c hn
      cases hn
  exact wp_exec hspec hrun c rfl

/-- The rows are as they were, unless the document was there and not yet marked. -/
theorem marked_untouched {db : Database} :
    (marked document_id db .document = db .document ∧
      marked document_id db .document_page = db .document_page) ↔
        ∀ d ∈ db .document, Document.id d = document_id → d.ocr_status = .processing := by
  have hpages : marked document_id db .document_page = db .document_page :=
    Schema.effect_update_ne _ _ _ (by decide)
  have hdocs : marked document_id db .document =
      set_status document_id .processing (db .document) := effect_set_status _ _ _
  rw [hdocs, set_status_eq_self]
  exact and_iff_left hpages

theorem failure_untouched_iff (hc : schema.Consistent s.db)
    (hrun : (run_ocr_for_document document_id engine).exec (perform schema run_ext) s =
      (.error (.ocr_failure c), s')) :
    Untouched s s' ↔
      ∀ d ∈ s.db .document, Document.id d = document_id → d.ocr_status = .processing := by
  have hfailed := run_failed hc hrun
  have hmarked : s'.db = marked document_id s.db → (Untouched s s' ↔
      ∀ d ∈ s.db .document, Document.id d = document_id → d.ocr_status = .processing) := by
    intro hs'
    rw [← marked_untouched, ← hs']
    exact ⟨fun h => ⟨h.documents, h.pages⟩, fun h => ⟨h.1, h.2⟩⟩
  generalize hdb : s'.db = db' at hfailed
  cases hfailed with
  | not_found missing =>
    refine iff_of_true ⟨by rw [hdb], by rw [hdb]⟩ ?_
    intro d hd hid
    exact absurd hid (missing d hd)
  | bytes_missing => exact hmarked hdb
  | engine_unavailable => exact hmarked hdb
  | engine_failed => exact hmarked hdb

end failure

/-! ### Attempts -/

/-- What the caller of an OCR run may do with the queue in the same session: some
    operations before the run, and some that depend on how it ended. -/
structure OcrAttempt where
  env : Env
  before : List QueueOp
  document_id : Uuid
  engine : OcrEngine
  after : Except OcrErrorClass Nat → List QueueOp

def queue_ops : List QueueOp → Handler Unit
  | [] => pure ()
  | op :: rest => do
      let _ ← op.program
      queue_ops rest

/-- `except OcrFailure`. -/
def classified : Exc → Option (Except OcrErrorClass Nat)
  | .ocr_failure c => some (.error c)
  | _ => none

/-- A run whose caller catches an `OcrFailure`. -/
def caught_run (document_id : Uuid) (engine : OcrEngine) : Handler (Except OcrErrorClass Nat) :=
  (do
    let filled ← run_ocr_for_document document_id engine
    pure (.ok filled) : Handler (Except OcrErrorClass Nat)).caught classified

def OcrAttempt.program (a : OcrAttempt) : Handler Unit := do
  queue_ops a.before
  let outcome ← caught_run a.document_id a.engine
  queue_ops (a.after outcome)

/-- Everything that happens to the documents: a turn, or an attempt with its bookkeeping. -/
inductive Work (Token : Type) where
  | turn (t : Turn Token)
  | attempt (a : OcrAttempt)

def Work.run (srv : Server Token) : Work Token → Committed → Committed
  | .turn t, w => t.run srv w
  | .attempt a, w => (get_session a.env a.program w).2

def works (srv : Server Token) (w : Committed) (l : Work Token) (w' : Committed) : Prop :=
  w' = l.run srv w

/-- The store has the document's bytes, and the engine returns pages for them. -/
def Readable (document_id : Uuid) (engine : OcrEngine) (s : Session) : Prop :=
  ∀ d ∈ s.db .document, Document.id d = document_id → ∃ data pages,
    (run_ext (Ext.get (Document.storage_key d)) s.ext).1 = .ok data ∧ engine data = .ok pages

/-- Each run whose failure would be committed is of a document that can be read, or of
    one that is not there. -/
def reads_well : List (Work Token × Committed) → Committed → Work Token → Prop
  | _, w, .turn (.ocr_caught env document_id engine) =>
      Readable document_id engine (w.begin env)
  | _, w, .attempt a => Readable a.document_id a.engine (w.begin a.env)
  | _, _, _ => True

/-! ### No document stays marked -/

def Unmarked (db : Database) : Prop := ∀ d ∈ db .document, Document.ocr_status d ≠ .processing

theorem Unmarked.of_documents {db db' : Database} (h : Unmarked db)
    (hsub : ∀ d ∈ db' .document, d ∈ db .document) : Unmarked db' :=
  fun d hd => h d (hsub d hd)

/-- Once the results are in, the status is one of the other two. -/
theorem OcrRead.unmarked {document_id : Uuid} {pages : List OcrPage} {db db' : Database}
    (h : OcrRead document_id pages db db') (hdb : Unmarked db) : Unmarked db' := by
  intro d hd
  rw [h.documents] at hd
  obtain ⟨d₀, hd₀, _, _, ⟨_, rfl⟩ | ⟨_, hstatus⟩⟩ := mem_set_status hd
  · exact hdb d hd₀
  · rw [hstatus]
    unfold read_status
    split <;> simp

theorem run_unmarked {document_id : Uuid} {engine : OcrEngine} {s : Session}
    (hc : schema.Consistent s.db) (hread : Readable document_id engine s) (hs : Unmarked s.db) :
    wps (run_ocr_for_document document_id engine) (fun r s' =>
      ((∃ n, r = .ok n) ∨ ∃ c, r = .error (.ocr_failure c)) → Unmarked s'.db) s := by
  refine wps_run_ocr_for_document hc ?_ ?_ ?_
  · rintro e s' hne (⟨n, hn⟩ | ⟨c, hfailed⟩)
    · cases hn
    · exact absurd (Except.error.inj hfailed) (hne c)
  · intro c s' hfailed _
    generalize s'.db = db' at hfailed
    cases hfailed with
    | not_found missing => exact hs
    | bytes_missing d mem id e store =>
      obtain ⟨data, pages, hdata, _⟩ := hread d mem id
      rw [store] at hdata
      cases hdata
    | engine_unavailable d mem id data store raised =>
      obtain ⟨data', pages, hdata, hpages⟩ := hread d mem id
      obtain rfl := Except.ok.inj (store.symm.trans hdata)
      rw [raised] at hpages
      cases hpages
    | engine_failed d mem id data store raised =>
      obtain ⟨data', pages, hdata, hpages⟩ := hread d mem id
      obtain rfl := Except.ok.inj (store.symm.trans hdata)
      rw [raised] at hpages
      cases hpages
  · intro d data pages n s' _ _ _ _ hfilled _ _
    exact hfilled.unmarked hs

/-! ### The queue and the documents -/

/-- SELECTs, and statements on the jobs. -/
def on_jobs : Op Row Patch Uuid Ext → Prop
  | .select _ _ => True
  | .snapshot => True
  | .write (.insert t _) => t = .job
  | .write (.update t _ _) => t = .job
  | .write (.delete _ _) => False
  | .ext _ => False

theorem queue_op_confined (op : QueueOp) : Confined on_jobs op.program := by
  cases op with
  | enqueue id kind payload now =>
    exact confined_bind (confined_bind (confined_insert rfl) (fun _ => every_pure _))
      (fun _ => every_pure _)
  | claim_next now =>
    refine confined_bind (every_select trivial) fun runnable => ?_
    cases order_by (fun a b : Job => decide (a.run_after ≤ b.run_after)) runnable with
    | nil => exact every_pure _
    | cons job rest => exact confined_bind (confined_update rfl) (fun _ => every_pure _)
  | mark_succeeded job => exact confined_bind (confined_update rfl) (fun _ => every_pure _)
  | mark_failed job error now =>
    refine confined_bind ?_ (fun _ => every_pure _)
    rw [mark_failed_eq]
    exact confined_update rfl

theorem queue_ops_confined (ops : List QueueOp) : Confined on_jobs (queue_ops ops) := by
  induction ops with
  | nil => exact every_pure _
  | cons op rest ih => exact confined_bind (queue_op_confined op) (fun _ => ih)

/-- The queue works on its own table. -/
theorem on_jobs_frame {s₀ : Session} (o : Op Row Patch Uuid Ext) (s : Session) (ho : on_jobs o)
    (hs : s.db .document = s₀.db .document ∧ s.ext = s₀.ext) :
    (perform schema run_ext o s).2.db .document = s₀.db .document ∧
      (perform schema run_ext o s).2.ext = s₀.ext := by
  have hext : (perform schema run_ext o s).2.ext = s.ext := by
    rcases perform_ext_state schema run_ext o s with heq | ⟨e, rfl, _⟩
    · exact heq
    · exact ho.elim
  have hdocs : (perform schema run_ext o s).2.db .document = s.db .document := by
    rcases perform_db schema run_ext o s with heq | ⟨wr, rfl, _, heq⟩
    · rw [heq]
    · rw [heq]
      cases wr with
      | insert t row =>
        obtain rfl : t = .job := ho
        exact Schema.effect_insert_ne _ _ (by decide)
      | update t id p =>
        obtain rfl : t = .job := ho
        exact Schema.effect_update_ne _ _ _ (by decide)
      | delete t id => exact ho.elim
  exact ⟨hdocs.trans hs.1, hext.trans hs.2⟩

theorem wps_queue_ops (ops : List QueueOp) (s : Session) :
    wps (queue_ops ops) (fun _ s' => s'.db .document = s.db .document ∧ s'.ext = s.ext) s :=
  wps_confined (queue_ops_confined ops) on_jobs_frame ⟨rfl, rfl⟩

theorem wps_sound {α : Type} (p : Handler α) {s : Session} (hc : schema.Consistent s.db) :
    wps p (fun _ s' => schema.Consistent s'.db) s :=
  wps_confined (I := fun s : Session => schema.Consistent s.db) (every_any p)
    (fun o _ _ hs => perform_consistent o hs) hc

/-! ### Runs -/

/-- A caller that goes on, after a return or a failure it caught, goes on with no
    document marked. -/
theorem wps_caught_unmarked {β : Type} {s : Session} {p : Handler β} {f : Exc → Option β}
    (hf : ∀ e b, f e = some b → ∃ c, e = .ocr_failure c)
    (hp : wps p (fun r s' =>
      ((∃ b, r = .ok b) ∨ ∃ c, r = .error (.ocr_failure c)) → Unmarked s'.db) s) :
    wps (p.caught f) (fun r s' => ∀ b, r = .ok b → Unmarked s'.db) s := by
  refine (wp_caught _ _).mpr (wp_mono hp ?_)
  rintro (e | b) s' hs'
  · cases hcatch : f e with
    | none =>
      refine (handled_none hcatch).mpr ?_
      intro b hb
      cases hb
    | some b =>
      obtain ⟨c, rfl⟩ := hf e b hcatch
      refine (handled_some hcatch).mpr ?_
      intro b' _
      exact hs' (.inr ⟨c, rfl⟩)
  · intro b' _
    exact hs' (.inl ⟨b, rfl⟩)

theorem wps_caught_run {document_id : Uuid} {engine : OcrEngine} {s : Session}
    (hc : schema.Consistent s.db) (hread : Readable document_id engine s) (hs : Unmarked s.db) :
    wps (caught_run document_id engine) (fun r s' => ∀ b, r = .ok b → Unmarked s'.db) s := by
  refine wps_caught_unmarked ?_ (wps_bind (wp_mono (run_unmarked hc hread hs) ?_))
  · intro e b hcatch
    cases e with
    | ocr_failure c => exact ⟨c, rfl⟩
    | _ => cases hcatch
  · rintro (e | n) s' hs'
    · rintro (⟨b, hb⟩ | ⟨c, hfailed⟩)
      · cases hb
      · exact hs' (.inr ⟨c, congrArg Except.error (Except.error.inj hfailed)⟩)
    · exact (wp_pure _).mpr (fun _ => hs' (.inl ⟨n, rfl⟩))

/-- **Step.** An attempt on a document that can be read leaves none marked. -/
theorem attempt_unmarked (a : OcrAttempt) {w : Committed} (hc : schema.Consistent w.db)
    (hread : Readable a.document_id a.engine (w.begin a.env)) (hw : Unmarked w.db) :
    Unmarked (get_session a.env a.program w).2.db := by
  let P : Except Exc Unit → Committed → Prop := fun _ w' => Unmarked w'.db
  have hP : P (get_session a.env a.program w).1 (get_session a.env a.program w).2 := by
    refine get_session_wps (wps_bind (wp_mono (wp_and.mpr
      ⟨wps_queue_ops a.before _, wps_sound _ hc⟩) ?_))
    rintro (e | _) s₁ ⟨⟨hdocs, hext⟩, hc₁⟩
    · exact hw
    -- the run finds the documents and the store as the session began
    have hs₁ : Unmarked s₁.db := by
      unfold Unmarked
      rw [hdocs]
      exact hw
    have hread₁ : Readable a.document_id a.engine s₁ := by
      unfold Readable
      rw [hdocs, hext]
      exact hread
    refine wps_bind (wp_mono (wps_caught_run hc₁ hread₁ hs₁) ?_)
    rintro (e | outcome) s₂ hs₂
    · exact hw
    refine wp_mono (wps_queue_ops (a.after outcome) s₂) ?_
    rintro (e | _) s₃ ⟨hdocs₃, _⟩
    · exact hw
    refine ⟨fun _ => ?_, fun _ => hw⟩
    show Unmarked s₃.db
    unfold Unmarked
    rw [hdocs₃]
    exact hs₂ outcome rfl
  exact hP

theorem caught_turn_unmarked (srv : Server Token) {env : Env} {document_id : Uuid} {engine : OcrEngine}
    {w : Committed} (hc : schema.Consistent w.db)
    (hread : Readable document_id engine (w.begin env)) (hw : Unmarked w.db) :
    Unmarked ((Turn.ocr_caught env document_id engine : Turn Token).run srv w).db := by
  let P : Except Exc Nat → Committed → Prop := fun _ w' => Unmarked w'.db
  have hP : P (get_session env ((run_ocr_for_document document_id engine).caught
      catch_ocr_failure) w).1 (get_session env ((run_ocr_for_document document_id engine).caught
        catch_ocr_failure) w).2 := by
    refine get_session_wps (wp_mono (wps_caught_unmarked ?_ (run_unmarked hc hread hw)) ?_)
    · intro e b hcatch
      cases e with
      | ocr_failure c => exact ⟨c, rfl⟩
      | _ => cases hcatch
    · rintro (e | n) s' hs'
      · exact hw
      · exact ⟨fun _ => hs' n rfl, fun _ => hw⟩
  exact hP

/-- A run whose failure is not caught commits its results or nothing. -/
theorem raised_turn_unmarked (srv : Server Token) {env : Env} {document_id : Uuid} {engine : OcrEngine}
    {w : Committed} (hc : schema.Consistent w.db) (hw : Unmarked w.db) :
    Unmarked ((Turn.step (.ocr env document_id engine) : Turn Token).run srv w).db := by
  let P : Except Exc Nat → Committed → Prop := fun _ w' => Unmarked w'.db
  have hP : P (get_session env (run_ocr_for_document document_id engine) w).1
      (get_session env (run_ocr_for_document document_id engine) w).2 := by
    refine get_session_wps (wps_run_ocr_for_document hc (fun _ _ _ => hw) (fun _ _ _ => hw) ?_)
    intro d data pages n s' _ _ _ _ hfilled _
    exact ⟨fun _ => hfilled.unmarked hw, fun _ => hw⟩
  exact hP

/-- A document that is stored is complete, or needs OCR. -/
theorem new_document_unmarked (env : Env) (request : IngestRequest) (key digest : String)
    (extraction : ExtractionResult) :
    (new_document env request key digest extraction).ocr_status ≠ .processing := by
  unfold new_document
  dsimp only
  split <;> simp

theorem unmarked_append {db db' : Database} {d : Document}
    (hdocs : db' .document = db .document ++ [d]) (hd : d.ocr_status ≠ .processing)
    (hdb : Unmarked db) : Unmarked db' := by
  intro d' hd'
  rw [hdocs] at hd'
  rcases List.mem_append.mp hd' with hin | hin
  · exact hdb d' hin
  · rw [List.mem_singleton.mp hin]
    exact hd

theorem ingest_unmarked {env : Env} {request : IngestRequest} {w : Committed}
    (hw : Unmarked w.db) :
    Unmarked ((Turn.ingest env request : Turn Token).run srv w).db := by
  let P : Except Exc Document → Committed → Prop := fun _ w' => Unmarked w'.db
  have hP : P (get_session env (ingest_document srv env request) w).1
      (get_session env (ingest_document srv env request) w).2 := by
    refine get_session_wps (wps_ingest_document (fun _ _ => hw) ?_)
    intro extraction s' _ hs'
    have hdocs : s'.db .document = w.db .document ++ [ingested srv env request extraction] :=
      (congrFun hs' .document).trans (with_pages_document _ _ _ _ _)
    have hnew : (ingested srv env request extraction).ocr_status ≠ .processing :=
      new_document_unmarked env request _ _ extraction
    exact ⟨fun _ => unmarked_append hdocs hnew hw, fun _ => hw⟩
  exact hP

theorem request_unmarked {env : Env} {req : Request Token} {w : Committed}
    (hc : schema.Consistent w.db) (hw : Unmarked w.db) :
    Unmarked ((Step.request env req).run srv w).db := by
  cases hroute : req.route.uploads with
  | false => exact hw.of_documents (request_kept hc hroute).documents
  | true =>
    obtain ⟨credentials, route⟩ := req
    cases route with
    | upload_document case_id upload =>
      rcases @serve_on_cases _ srv env ⟨credentials, .upload_document case_id upload⟩ rfl w with
        ⟨auth, reply, row, db, _, hacc, _, hdb⟩ | ⟨_, hdb⟩
      · have hrun : ((Step.request env ⟨credentials, .upload_document case_id upload⟩).run srv
            w).db = schema.effect (.insert .case_audit_event row) db := hdb
        cases hacc with
        | upload_document _ _ c owned source extraction read =>
          have hnew : (uploaded_document srv env case_id upload source extraction).ocr_status ≠
              .processing := new_document_unmarked env _ _ _ extraction
          refine unmarked_append ?_ hnew hw
          rw [hrun, Schema.effect_insert_ne _ _ (by decide)]
          exact with_pages_document _ _ _ _ _
      · have hrun : ((Step.request env ⟨credentials, .upload_document case_id upload⟩).run srv
            w).db = w.db := hdb
        rwa [hrun]
    | _ => cases hroute

/-- **Step.** Reading well, no document stays marked. -/
theorem work_unmarked {past : List (Work Token × Committed)} {w : Committed} {l : Work Token}
    (hc : schema.Consistent w.db) (hw : Unmarked w.db) (hmay : reads_well past w l) :
    Unmarked (l.run srv w).db := by
  cases l with
  | attempt a => exact attempt_unmarked a hc hmay hw
  | turn t =>
    cases t with
    | ocr_caught env document_id engine => exact caught_turn_unmarked srv hc hmay hw
    | ingest env request => exact ingest_unmarked hw
    | step s =>
      cases s with
      | request env req => exact request_unmarked hc hw
      | ocr env document_id engine => exact raised_turn_unmarked srv hc hw

theorem works_unmarked {past : List (Work Token × Committed)} {w : Committed}
    (hr : Run (works srv) reads_well .empty past w) : Unmarked w.db := by
  suffices hboth : schema.Consistent w.db ∧ Unmarked w.db from hboth.2
  refine hr.invariant (I := fun _ w => schema.Consistent w.db ∧ Unmarked w.db)
    ⟨Schema.consistent_empty, ?_⟩ ?_
  · intro d hd
    cases hd
  · rintro past w l w' _ ⟨hc, hw⟩ hmay rfl
    refine ⟨?_, work_unmarked hc hw hmay⟩
    cases l with
    | attempt a => exact (get_session_sound _ _ hc).1
    | turn t => exact t.consistent srv hc

/-- **A failed attempt leaves the document as it found it exactly when it found no
    document, or found it marked already.** Over runs: while each run whose failure is
    committed is of a document that can be read, no document stays marked, and so none
    is when its jobs have failed or succeeded. -/
theorem failed_attempt_untouched_iff (srv : Server Token) :
    (∀ (document_id : Uuid) (engine : OcrEngine) (s s' : Session) (c : OcrErrorClass),
      schema.Consistent s.db →
      (run_ocr_for_document document_id engine).exec (perform schema run_ext) s =
        (.error (.ocr_failure c), s') →
      (Untouched s s' ↔
        ∀ d ∈ s.db .document, Document.id d = document_id → d.ocr_status = .processing)) ∧
    ∀ (past : List (Work Token × Committed)) (w : Committed),
      Run (works srv) reads_well .empty past w →
      ∀ d ∈ w.db .document, Document.ocr_status d ≠ .processing :=
  ⟨fun _ _ _ _ _ => failure_untouched_iff, fun _ _ => works_unmarked⟩

/-- An engine that breaks on whatever it is given. -/
def broken_engine : OcrEngine := fun _ => .error .failed

/-- An attempt that reads the scan and marks nothing. -/
def first_attempt : OcrAttempt where
  env := Sample.env 5 (104 * second)
  before := [.claim_next (104 * second)]
  document_id := 16384#128
  engine := first_page_engine
  after := fun _ => []

def scan_worked : List (Work Payload × Committed) × Committed :=
  trail (Work.run Sample.server) .empty (.attempt first_attempt :: scan_uploaded.map .turn)

/-- A second failure finds the document marked by the first and leaves it so; a run that
    reads the scan leaves it unmarked. -/
theorem marked_scan_untouched :
    Untouched (Sample.session (marked 3#128 Sample.scan))
      ((run_ocr_for_document 3#128 broken_engine).exec (perform schema run_ext)
        (Sample.session (marked 3#128 Sample.scan))).2 ∧
    scan_worked.2.db .document ≠ [] ∧
    ∀ d ∈ scan_worked.2.db .document, Document.ocr_status d ≠ .processing := by
  have hall := failed_attempt_untouched_iff Sample.server
  have hsound : schema.Consistent (marked 3#128 Sample.scan) :=
    (Sample.sound_of_admissible (by decide +kernel)).1
  have hrun : ((run_ocr_for_document 3#128 broken_engine).exec (perform schema run_ext)
      (Sample.session (marked 3#128 Sample.scan))).1 = .error (.ocr_failure .ocr_engine_failed) := by
    decide +kernel
  refine ⟨(hall.1 _ _ _ _ _ hsound (Prod.ext hrun rfl)).mpr ?_, by decide +kernel,
    hall.2 scan_worked.1 _ ?_⟩
  · have hmarked : ∀ d ∈ marked 3#128 Sample.scan .document,
        Document.ocr_status d = .processing := by decide +kernel
    exact fun d hd _ => hmarked d hd
  · refine .next _ (.next _ (.next _ (.next _ (.next _ .start trivial rfl) trivial rfl) trivial rfl)
      trivial rfl) ?_ rfl
    have hstored : ∀ d ∈ (played Sample.server scan_uploaded).2.db .document,
        (run_ext (Ext.get (Document.storage_key d))
          ((played Sample.server scan_uploaded).2.begin first_attempt.env).ext).1 =
            .ok pdf_magic := by decide +kernel
    intro d hd _
    exact ⟨pdf_magic, _, hstored d hd, rfl⟩

/-- The last attempt a job has left, on a document that can be found and an engine that
    breaks. -/
def last_job : Job := ⟨5#128, .ocr_document, .queued, Uuid.str 3#128, 4, 0, none⟩

def scan_with_job : Database := Sample.scan.set .job [last_job]

def last_attempt : OcrAttempt where
  env := Sample.env 1 (100 * second)
  before := [.claim_next (100 * second)]
  document_id := 3#128
  engine := broken_engine
  after := fun _ => [.mark_failed (JobPatch.claim.apply last_job) "ocr_engine_failed"
    (100 * second)]

/-- The failure is recorded, the job has failed for good, and the document is still
    being read. -/
theorem failed_document_stays_marked :
    (schema.Consistent scan_with_job ∧ schema.Fitting scan_with_job) ∧
    ((run_ocr_for_document 3#128 broken_engine).exec (perform schema run_ext)
      (Sample.session scan_with_job)).1 = .error (.ocr_failure .ocr_engine_failed) ∧
    ¬ Untouched (Sample.session scan_with_job)
      ((run_ocr_for_document 3#128 broken_engine).exec (perform schema run_ext)
        (Sample.session scan_with_job)).2 ∧
    ∃ w, w = (get_session last_attempt.env last_attempt.program
        ⟨scan_with_job, (Sample.session scan_with_job).ext⟩).2 ∧
      (∀ d ∈ w.db .document, Document.ocr_status d = .processing) ∧ w.db .document ≠ [] ∧
      ∀ j ∈ w.db .job, Job.status j = .failed := by
  refine ⟨Sample.sound_of_admissible (by decide +kernel), by decide +kernel, ?_,
    _, rfl, by decide +kernel, by decide +kernel, by decide +kernel⟩
  intro huntouched
  exact absurd huntouched.documents (by decide +kernel)

end CounselReady
