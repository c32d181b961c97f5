import CounselReady.Framework.Simulation
import CounselReady.Guarantees.CaseIsolation
import CounselReady.Guarantees.Chronology
import CounselReady.Guarantees.Citations
import CounselReady.Guarantees.Timeline
import CounselReady.Specs.Cabinet
import CounselReady.Specs.Enrolment
import CounselReady.Specs.Ingest

/-! # The Server Is a Filing Cabinet

    A run of the server, whatever its requests, shows on its case, document and
    timeline routes what a run of the cabinet of `Specs.Cabinet` shows: the same
    answers to the same accounts, in the same order. The cabinet is read off the
    rows (`cabinet_of`); a refused request, one whose COMMIT fails and one to any
    other route leave it as it is.

    Requests and jobs are served one after another. An answer counts when its
    COMMIT goes through, whichever of the two comes first.
-/

namespace CounselReady

open Relational Framework Handler Prog

variable {Token : Type} {srv : Server Token} {env : Env} {db db' : Database}

/-! ### The cabinet behind the rows -/

def cases_owned (db : Database) (account : Uuid) : List Case :=
  order_by (fun a b : Case => decide (a.created_at ≤ b.created_at))
    ((db .case_).filter (fun c : Case => c.owner_id == account))

def paper_of (db : Database) (d : Document) : Paper :=
  (document_response d, (pages_of db d.id).map (page_response []))

def entry_of (db : Database) (e : CaseEvent) : EventResponse :=
  event_response ⟨[], [], [], db .case_event_note⟩ e

def folder_of (db : Database) (c : Case) : Folder where
  case := case_response c
  documents := (documents_of db c.id).map (paper_of db)
  timeline := (events_of db c.id).map (entry_of db)

def cabinet_of (db : Database) : Cabinet :=
  fun account => (cases_owned db account).map (folder_of db)

/-- What is read off a file. -/
def reading (srv : Server Token) (data : Bytes) : Except Exc ExtractionResult :=
  extract_text_layer srv data default_max_pages default_max_chars_per_page

/-! ### What a run may assume, and what it shows -/

/-- The step draws fresh values, and the clock does not go back. -/
structure Orderly (srv : Server Token) (h : History Token) (s : Step Token) : Prop where
  fresh : ∀ env req, s = .request env req → Fresh srv h env
  clock : ∀ p ∈ h.past, p.1.env.now ≤ s.env.now

/-- What an onlooker can tell of a step of the server: who is answered, and what, when the
    COMMIT goes through. -/
inductive Glimpsed (srv : Server Token) (w : Committed) : Step Token → Glimpse Token → Prop where
  | answered {env : Env} {req : Request Token} {auth : Authenticated} {reply : Reply Token}
      (route : req.route.on_cases = true)
      (account : SignedIn srv env req.credentials w.db auth) (committed : env.commits = true)
      (success : handler_response srv env req w = .success req.route.success_status reply) :
      Glimpsed srv w (.request env req)
        (.answered auth.account.id (env.uuid 0) env.now req.route reply)
  | erased {env : Env} {req : Request Token} {auth : Authenticated}
      (route : req.route.deletes_account = true)
      (account : SignedIn srv env req.credentials w.db auth) (committed : env.commits = true)
      (success : (handler_response srv env req w).succeeded = true) :
      Glimpsed srv w (.request env req) (.erased auth.account.id)
  | refused {env : Env} {req : Request Token} (refused : (handler_response srv env req w).refuses) :
      Glimpsed srv w (.request env req) .quiet
  | lost {env : Env} {req : Request Token} (lost : env.commits = false) :
      Glimpsed srv w (.request env req) .quiet
  | elsewhere {env : Env} {req : Request Token} (route : req.route.on_cases = false)
      (kept : req.route.deletes_account = false) : Glimpsed srv w (.request env req) .quiet
  | read_in {env : Env} {document_id : Uuid} {engine : OcrEngine} {n : Nat} {data : Bytes}
      {pages : List OcrPage}
      (done : (get_session env (run_ocr_for_document document_id engine) w).1 = .ok n)
      (stored : ∃ d ∈ w.db .document, Document.id d = document_id ∧
        w.ext.store (Document.storage_key d) = some data)
      (read : engine data = .ok pages) :
      Glimpsed srv w (.ocr env document_id engine) (.read_in document_id pages)
  | unread {env : Env} {document_id : Uuid} {engine : OcrEngine} {e : Exc}
      (failed : (get_session env (run_ocr_for_document document_id engine) w).1 = .error e) :
      Glimpsed srv w (.ocr env document_id engine) .quiet

/-! ### What the cabinet is read off -/

/-- The same rows in the tables a case file is made of. -/
structure SameFiles (db db' : Database) : Prop where
  cases : db' .case_ = db .case_
  documents : db' .document = db .document
  pages : db' .document_page = db .document_page
  events : db' .case_event = db .case_event
  notes : db' .case_event_note = db .case_event_note

theorem SameFiles.refl (db : Database) : SameFiles db db := ⟨rfl, rfl, rfl, rfl, rfl⟩

theorem SameFiles.of_tables (h : ∀ t ∈ [Table.case_, .document, .document_page, .case_event,
    .case_event_note], db' t = db t) : SameFiles db db' :=
  ⟨h _ (by decide), h _ (by decide), h _ (by decide), h _ (by decide), h _ (by decide)⟩

theorem folder_congr (hdocuments : db' .document = db .document)
    (hpages : db' .document_page = db .document_page) (hevents : db' .case_event = db .case_event)
    (hnotes : db' .case_event_note = db .case_event_note) : folder_of db' = folder_of db := by
  funext c
  unfold folder_of documents_of events_of paper_of entry_of pages_of
  rw [hdocuments, hpages, hevents, hnotes]

theorem SameFiles.cabinet (h : SameFiles db db') : cabinet_of db' = cabinet_of db := by
  unfold cabinet_of cases_owned
  rw [folder_congr h.documents h.pages h.events h.notes, h.cases]

/-- The audit trail is not in it. -/
theorem cabinet_audited (row : CaseAuditEvent) :
    cabinet_of (schema.effect (.insert .case_audit_event row) db) = cabinet_of db := by
  refine SameFiles.cabinet (.of_tables fun t ht => Schema.effect_insert_ne _ _ ?_)
  rintro rfl
  exact absurd ht (by decide)

theorem mem_cases_owned {account : Uuid} {c : Case} :
    c ∈ cases_owned db account ↔ c ∈ db .case_ ∧ c.owner_id = account := by
  unfold cases_owned
  rw [mem_order_by, List.mem_filter, beq_iff_eq]

theorem mem_documents_of {case_id : Uuid} {d : Document} :
    d ∈ documents_of db case_id ↔ d ∈ db .document ∧ d.case_id = case_id := by
  unfold documents_of
  rw [mem_order_by, List.mem_filter, beq_iff_eq]

theorem mem_events_of {case_id : Uuid} {e : CaseEvent} :
    e ∈ events_of db case_id ↔ e ∈ db .case_event ∧ e.case_id = case_id := by
  unfold events_of
  rw [mem_order_by, List.mem_filter, beq_iff_eq]

theorem mem_pages_of {document_id : Uuid} {p : DocumentPage} :
    p ∈ pages_of db document_id ↔ p ∈ db .document_page ∧ p.document_id = document_id := by
  unfold pages_of
  rw [mem_order_by, List.mem_filter, beq_iff_eq]

section rows
variable {account : UserAccount} {case_id : Uuid} {c : Case}

/-- The case file an account is let to is in its drawer. -/
theorem folder_found (hc : schema.Consistent db) (h : Owns db account case_id c) :
    (cabinet_of db).folder account.id case_id = some (folder_of db c) := by
  unfold Cabinet.folder cabinet_of
  rw [List.find?_map]
  have hfound : (cases_owned db account.id).find?
      ((fun f => f.case.id == case_id) ∘ folder_of db) = some c := by
    refine find_unique (mem_cases_owned.mpr ⟨h.mem, h.owner⟩) (beq_iff_eq.mpr h.id) ?_
    intro c' hc' hid
    have hid' : Case.id c' = case_id := beq_iff_eq.mp hid
    exact hc.eq_of_pk (mem_cases_owned.mp hc').1 h.mem (hid'.trans h.id.symm)
  rw [hfound]
  rfl

/-- One case file changes, and no other. -/
theorem amended (hc : schema.Consistent db) (h : Owns db account case_id c)
    {change : Folder → Folder} (hcases : db' .case_ = db .case_)
    (hself : folder_of db' c = change (folder_of db c))
    (hother : ∀ c' ∈ db .case_, Case.id c' ≠ case_id → folder_of db' c' = folder_of db c') :
    cabinet_of db' = (cabinet_of db).amend account.id case_id change := by
  have howned : ∀ a, cases_owned db' a = cases_owned db a := by
    intro a
    unfold cases_owned
    rw [hcases]
  funext a
  by_cases ha : a = account.id
  · subst ha
    unfold Cabinet.amend Cabinet.put
    rw [Function.update_self]
    unfold cabinet_of
    rw [howned, List.map_map]
    refine List.map_congr_left fun c' hc' => ?_
    have hmem := (mem_cases_owned.mp hc').1
    by_cases hid : Case.id c' = case_id
    · obtain rfl : c' = c := hc.eq_of_pk hmem h.mem (hid.trans h.id.symm)
      have hshown : (folder_of db c').case.id = case_id := hid
      simp only [Function.comp_apply, if_pos hshown, hself]
    · have hshown : (folder_of db c').case.id ≠ case_id := hid
      simp only [Function.comp_apply, if_neg hshown, hother c' hmem hid]
  · -- another drawer
    unfold Cabinet.amend Cabinet.put
    rw [Function.update_of_ne ha]
    unfold cabinet_of
    rw [howned]
    refine List.map_congr_left fun c' hc' => ?_
    obtain ⟨hmem, howner⟩ := mem_cases_owned.mp hc'
    refine hother c' hmem fun hid => ha ?_
    obtain rfl : c' = c := hc.eq_of_pk hmem h.mem (hid.trans h.id.symm)
    exact howner.symm.trans h.owner

end rows

/-! ### New rows -/

/-- When a row of a case file was recorded. -/
def recorded_at : (t : Table) → Row t → Nat
  | .case_, (c : Case) => c.created_at
  | .document, (d : Document) => d.created_at
  | .case_event, (e : CaseEvent) => e.created_at
  | .case_event_note, (n : CaseEventNote) => n.created_at
  | _, _ => 0

/-- No row of a case file is later than this. -/
def Behind (now : Nat) (db : Database) : Prop := ∀ t, ∀ r ∈ db t, recorded_at t r ≤ now

theorem Behind.mono {now now' : Nat} (h : Behind now db) (hle : now ≤ now') : Behind now' db :=
  fun t r hr => (h t r hr).trans hle

/-- The latest row is read last. -/
theorem order_by_latest {α : Type} {key : α → Nat} {rows : List α} {x : α}
    (h : ∀ b ∈ rows, key b ≤ key x) :
    order_by (fun a b => decide (key a ≤ key b)) (rows ++ [x]) =
      order_by (fun a b => decide (key a ≤ key b)) rows ++ [x] := by
  refine (@insertionSort_concat _ (fun a b => decide (key a ≤ key b)) ?_ ?_ rows x).trans
    (insert_last_of_le fun b hb => ?_)
  · intro a b
    simpa using Nat.le_total (key a) (key b)
  · intro a b c hab hbc
    simp only [decide_eq_true_eq] at hab hbc ⊢
    exact hab.trans hbc
  · have hmem : b ∈ rows := mem_order_by.mp hb
    simpa using h b hmem

/-- Nothing points at what is not there. -/
theorem none_under (hc : schema.Consistent db) {t : Table} {k : ForeignKey Row Uuid t}
    (hk : k ∈ row_keys t) {id : Uuid} (hnew : ∀ p ∈ db k.target, row_pk k.target p ≠ id)
    {p : Row t → Bool} (hp : ∀ r, p r = true → k.column r = some id) : (db t).filter p = [] := by
  refine List.filter_eq_nil_iff.mpr fun r hr hpr => ?_
  obtain ⟨r', hr', hpk⟩ := hc.target hr hk (hp r hpr)
  exact hnew r' hr' hpk

section new
variable {id : Uuid} (hc : schema.Consistent db)
include hc

theorem documents_of_new (hnew : ∀ c ∈ db .case_, Case.id c ≠ id) : documents_of db id = [] := by
  unfold documents_of
  rw [none_under hc (t := .document) (k := belongs .case_ Document.case_id) List.mem_cons_self hnew
    fun _ hr => congrArg some (beq_iff_eq.mp hr)]
  rfl

theorem events_of_new (hnew : ∀ c ∈ db .case_, Case.id c ≠ id) : events_of db id = [] := by
  unfold events_of
  rw [none_under hc (t := .case_event) (k := belongs .case_ CaseEvent.case_id) List.mem_cons_self
    hnew fun _ hr => congrArg some (beq_iff_eq.mp hr)]
  rfl

theorem pages_of_new (hnew : ∀ d ∈ db .document, Document.id d ≠ id) :
    (db .document_page).filter (fun p : DocumentPage => p.document_id == id) = [] :=
  none_under hc (t := .document_page) (k := belongs .document DocumentPage.document_id)
    List.mem_cons_self hnew fun _ hr => congrArg some (beq_iff_eq.mp hr)

theorem notes_of_new (hnew : ∀ e ∈ db .case_event, CaseEvent.id e ≠ id) :
    (db .case_event_note).filter (fun n : CaseEventNote => n.event_id == id) = [] :=
  none_under hc (t := .case_event_note) (k := belongs .case_event CaseEventNote.event_id)
    List.mem_cons_self hnew fun _ hr => congrArg some (beq_iff_eq.mp hr)

end new

/-! ### What each route puts in -/

/-- A new case is the last in its drawer. -/
theorem cabinet_opened (hc : schema.Consistent db) {c : Case}
    (hlatest : ∀ c' ∈ db .case_, Case.created_at c' ≤ c.created_at)
    (hnew : ∀ c' ∈ db .case_, Case.id c' ≠ c.id) :
    cabinet_of (schema.effect (.insert .case_ c) db) = (cabinet_of db).put c.owner_id
      (cabinet_of db c.owner_id ++ [empty_folder (case_response c)]) := by
  have hrows : schema.effect (.insert .case_ c) db .case_ = db .case_ ++ [c] :=
    Schema.effect_insert_self _ _ _
  have hfolder : folder_of (schema.effect (.insert .case_ c) db) = folder_of db :=
    folder_congr (Schema.effect_insert_ne _ _ (by decide)) (Schema.effect_insert_ne _ _ (by decide))
      (Schema.effect_insert_ne _ _ (by decide)) (Schema.effect_insert_ne _ _ (by decide))
  have hempty : folder_of db c = empty_folder (case_response c) := by
    unfold folder_of
    rw [documents_of_new hc hnew, events_of_new hc hnew]
    rfl
  funext a
  unfold Cabinet.put
  by_cases ha : a = c.owner_id
  · subst ha
    rw [Function.update_self]
    unfold cabinet_of cases_owned
    have hmine : [c].filter (fun c' : Case => c'.owner_id == c.owner_id) = [c] := by simp
    rw [hrows, hfolder, List.filter_append, hmine, order_by_latest fun b hb =>
      hlatest b (List.mem_filter.mp hb).1, List.map_append, List.map_singleton, hempty]
  · rw [Function.update_of_ne ha]
    unfold cabinet_of cases_owned
    have hother : [c].filter (fun c' : Case => c'.owner_id == a) = [] := by simp [Ne.symm ha]
    rw [hrows, hfolder, List.filter_append, hother, List.append_nil]

section routes
variable {account : UserAccount} {case_id : Uuid} {c : Case}

/-- A new document is the last of its case. -/
theorem cabinet_filed (hc : schema.Consistent db) (h : Owns db account case_id c) {d : Document}
    {rows : List DocumentPage} (hin : d.case_id = case_id)
    (hlatest : ∀ d' ∈ db .document, Document.created_at d' ≤ d.created_at)
    (hnew : ∀ d' ∈ db .document, Document.id d' ≠ d.id)
    (hof : ∀ p ∈ rows, DocumentPage.document_id p = d.id)
    (hsorted : rows.Pairwise (fun a b => decide (a.page_number ≤ b.page_number) = true))
    (hcases : db' .case_ = db .case_) (hdocuments : db' .document = db .document ++ [d])
    (hpages : db' .document_page = db .document_page ++ rows)
    (hevents : db' .case_event = db .case_event)
    (hnotes : db' .case_event_note = db .case_event_note) :
    cabinet_of db' = (cabinet_of db).amend account.id case_id
      (Folder.file (document_response d, rows.map (page_response []))) := by
  -- the documents there have their pages
  have hold : ∀ d' ∈ db .document, paper_of db' d' = paper_of db d' := by
    intro d' hd'
    have hnone : rows.filter (fun p : DocumentPage => p.document_id == Document.id d') = [] := by
      refine List.filter_eq_nil_iff.mpr fun p hp hid => hnew d' hd' ?_
      exact (beq_iff_eq.mp hid).symm.trans (hof p hp)
    unfold paper_of pages_of
    rw [hpages, List.filter_append, hnone, List.append_nil]
  -- the new one has its own
  have hpaper : paper_of db' d = (document_response d, rows.map (page_response [])) := by
    have hown : rows.filter (fun p : DocumentPage => p.document_id == d.id) = rows :=
      List.filter_eq_self.mpr fun p hp => beq_iff_eq.mpr (hof p hp)
    unfold paper_of pages_of
    rw [hpages, List.filter_append, pages_of_new hc hnew, List.nil_append, hown,
      order_by_of_sorted hsorted]
  have htimeline : ∀ c' : Case, (events_of db' c'.id).map (entry_of db') =
      (events_of db c'.id).map (entry_of db) := by
    intro c'
    unfold events_of entry_of
    rw [hevents, hnotes]
  refine amended hc h hcases ?_ fun c' hc' hne => ?_
  · have hmine : [d].filter (fun d' : Document => d'.case_id == c.id) = [d] := by
      simp [hin, h.id]
    have hlist : documents_of db' c.id = documents_of db c.id ++ [d] := by
      unfold documents_of
      rw [hdocuments, List.filter_append, hmine]
      exact order_by_latest fun b hb => hlatest b (List.mem_filter.mp hb).1
    unfold folder_of Folder.file
    rw [htimeline, hlist, List.map_append, List.map_singleton, hpaper,
      List.map_congr_left fun d' hd' => hold d' (mem_documents_of.mp hd').1]
  · have hother : [d].filter (fun d' : Document => d'.case_id == c'.id) = [] := by
      have hne' : case_id ≠ c'.id := Ne.symm hne
      simp [hin, hne']
    have hlist : documents_of db' c'.id = documents_of db c'.id := by
      unfold documents_of
      rw [hdocuments, List.filter_append, hother, List.append_nil]
    unfold folder_of
    rw [htimeline, hlist, List.map_congr_left fun d' hd' => hold d' (mem_documents_of.mp hd').1]

/-- A new entry goes where it happened. -/
theorem cabinet_recorded (hc : schema.Consistent db) (h : Owns db account case_id c)
    {e : CaseEvent} (hin : e.case_id = case_id)
    (hlatest : ∀ e' ∈ db .case_event, CaseEvent.created_at e' ≤ e.created_at) :
    cabinet_of (schema.effect (.insert .case_event e) db) =
      (cabinet_of db).amend account.id case_id (Folder.record (entry_of db e)) := by
  have hrows : schema.effect (.insert .case_event e) db .case_event = db .case_event ++ [e] :=
    Schema.effect_insert_self _ _ _
  have hentry : entry_of (schema.effect (.insert .case_event e) db) = entry_of db := by
    unfold entry_of
    rw [Schema.effect_insert_ne _ _ (by decide)]
  have hdocuments : ∀ c' : Case,
      (documents_of (schema.effect (.insert .case_event e) db) c'.id).map
        (paper_of (schema.effect (.insert .case_event e) db)) =
      (documents_of db c'.id).map (paper_of db) := by
    intro c'
    unfold documents_of paper_of pages_of
    rw [Schema.effect_insert_ne _ _ (by decide), Schema.effect_insert_ne _ _ (by decide)]
  refine amended hc h (Schema.effect_insert_ne _ _ (by decide)) ?_ fun c' hc' hne => ?_
  · have hmine : [e].filter (fun e' : CaseEvent => e'.case_id == c.id) = [e] := by
      simp [hin, h.id]
    have hlist : events_of (schema.effect (.insert .case_event e) db) c.id =
        insert_last chronological e (events_of db c.id) := by
      unfold events_of
      rw [hrows, List.filter_append, hmine]
      exact insertionSort_concat chronological_total chronological_trans _ _
    -- what was recorded earlier ties by date alone
    have hplace : ∀ e' ∈ events_of db c.id,
        chronological e' e = older (entry_of db e') (entry_of db e) := by
      intro e' he'
      have hrecorded := hlatest e' (mem_events_of.mp he').1
      have hiff : chronological e' e = true ↔ older (entry_of db e') (entry_of db e) = true := by
        show chronological e' e = true ↔ decide (e'.occurred_at ≤ e.occurred_at) = true
        simp only [chronological, Bool.or_eq_true, Bool.and_eq_true, decide_eq_true_eq]
        omega
      exact Bool.eq_iff_iff.mpr hiff
    unfold folder_of Folder.record
    rw [hdocuments, hlist, hentry, map_insert_last hplace]
  · have hother : [e].filter (fun e' : CaseEvent => e'.case_id == c'.id) = [] := by
      have hne' : case_id ≠ c'.id := Ne.symm hne
      simp [hin, hne']
    have hlist : events_of (schema.effect (.insert .case_event e) db) c'.id = events_of db c'.id := by
      unfold events_of
      rw [hrows, List.filter_append, hother, List.append_nil]
    unfold folder_of
    rw [hdocuments, hlist, hentry]

/-- A new note goes under its entry. -/
theorem cabinet_annotated (hc : schema.Consistent db) (h : Owns db account case_id c)
    {e : CaseEvent} (he : e ∈ db .case_event) (hin : e.case_id = case_id) {n : CaseEventNote}
    (hof : n.event_id = e.id)
    (hlatest : ∀ n' ∈ db .case_event_note, CaseEventNote.created_at n' ≤ n.created_at) :
    cabinet_of (schema.effect (.insert .case_event_note n) db) =
      (cabinet_of db).amend account.id case_id (Folder.annotate e.id (note_response n)) := by
  have hrows : schema.effect (.insert .case_event_note n) db .case_event_note =
      db .case_event_note ++ [n] := Schema.effect_insert_self _ _ _
  have hevents : ∀ c' : Case, events_of (schema.effect (.insert .case_event_note n) db) c'.id =
      events_of db c'.id := by
    intro c'
    unfold events_of
    rw [Schema.effect_insert_ne _ _ (by decide)]
  have hdocuments : ∀ c' : Case,
      (documents_of (schema.effect (.insert .case_event_note n) db) c'.id).map
        (paper_of (schema.effect (.insert .case_event_note n) db)) =
      (documents_of db c'.id).map (paper_of db) := by
    intro c'
    unfold documents_of paper_of pages_of
    rw [Schema.effect_insert_ne _ _ (by decide), Schema.effect_insert_ne _ _ (by decide)]
  -- its own entry gains the note at the end, where the latest goes
  have hunder : ∀ e' : CaseEvent, e'.id = e.id →
      entry_of (schema.effect (.insert .case_event_note n) db) e' =
        { entry_of db e' with notes := (entry_of db e').notes ++ [note_response n] } := by
    intro e' hid
    have hmine : [n].filter (fun n' : CaseEventNote => n'.event_id == e'.id) = [n] := by
      simp [hof, hid]
    unfold entry_of event_response notes_of
    dsimp only
    rw [hrows, List.filter_append, hmine, order_by_latest fun b hb =>
      hlatest b (List.mem_filter.mp hb).1, List.map_append]
    rfl
  -- the note is no other entry's
  have hapart : ∀ e' : CaseEvent, e'.id ≠ e.id →
      entry_of (schema.effect (.insert .case_event_note n) db) e' = entry_of db e' := by
    intro e' hid
    have hother : [n].filter (fun n' : CaseEventNote => n'.event_id == e'.id) = [] := by
      simp [hof, Ne.symm hid]
    unfold entry_of event_response notes_of
    dsimp only
    rw [hrows, List.filter_append, hother, List.append_nil]
    rfl
  refine amended hc h (Schema.effect_insert_ne _ _ (by decide)) ?_ fun c' hc' hne => ?_
  · unfold folder_of Folder.annotate
    rw [hdocuments, hevents, List.map_map]
    refine congrArg _ (List.map_congr_left fun e' he' => ?_)
    by_cases hid : e'.id = e.id
    · have hshown : (entry_of db e').id = e.id := hid
      simp only [Function.comp_apply, if_pos hshown, hunder e' hid]
    · have hshown : (entry_of db e').id ≠ e.id := hid
      simp only [Function.comp_apply, if_neg hshown, hapart e' hid]
  · unfold folder_of
    rw [hdocuments, hevents]
    refine congrArg _ (List.map_congr_left fun e' he' => hapart e' fun hid => hne ?_)
    obtain ⟨hmem, hcase⟩ := mem_events_of.mp he'
    obtain rfl : e' = e := hc.eq_of_pk hmem he hid
    exact hcase.symm.trans hin

end routes

/-! ### What each route shows -/

/-- No passage, no citation: an entry is shown as it was put in. -/
theorem event_response_loaded (hpassages : db .passage = []) {events : List CaseEvent}
    {e : CaseEvent} (he : e ∈ events) :
    event_response (loaded_of db events) e = entry_of db e := by
  have hcitation : ∀ loaded : Loaded, loaded.passages = [] → citation loaded e = none := by
    intro loaded hnone
    unfold citation
    rw [hnone]
    cases e.passage_id <;> rfl
  have hloaded : (loaded_of db events).passages = [] := by
    unfold loaded_of
    rw [hpassages]
    rfl
  unfold entry_of event_response
  rw [notes_of_loaded he, hcitation _ hloaded, hcitation _ rfl]
  rfl

theorem passages_on_none (hpassages : db .passage = []) (pages : List DocumentPage) :
    passages_on db pages = [] := by
  unfold passages_on
  rw [hpassages]
  rfl

/-- The pages of an upload, as their reader will be shown them. -/
theorem shown_page_rows (env : Env) (document_id : Uuid) (pages : List ExtractedPage) :
    (page_rows env document_id pages).map (page_response []) =
      pages.map fun page => ⟨page.page_number, page.text, none, []⟩ := by
  refine List.ext_getElem (by simp [page_rows]) fun i _ _ => ?_
  simp [page_rows, page_response, order_by]

/-- The pages of an upload are met in the order they are read in. -/
theorem page_rows_sorted {extraction : ExtractionResult} {data : Bytes} (env : Env)
    (document_id : Uuid) (h : reading srv data = .ok extraction) :
    (page_rows env document_id extraction.pages).Pairwise
      (fun a b => decide (a.page_number ≤ b.page_number) = true) := by
  have hnumbers : (page_rows env document_id extraction.pages).map DocumentPage.page_number =
      extraction.pages.map ExtractedPage.page_number := by
    refine List.ext_getElem (by simp [page_rows]) fun i _ _ => ?_
    simp [page_rows]
  obtain ⟨n, hrange⟩ := extract_text_layer_numbers h
  have hsorted : ((List.range n).map (fun i : Nat => (i : Int) + 1)).Pairwise (· ≤ ·) := by
    refine List.pairwise_map.mpr (List.pairwise_lt_range.imp fun hlt => ?_)
    omega
  rw [← hrange, ← hnumbers] at hsorted
  exact (List.pairwise_map.mp hsorted).imp fun hle => decide_eq_true hle

/-- The tables an upload leaves alone. -/
theorem with_pages_ne {document : Document} {extraction : ExtractionResult}
    {rows : List DocumentPage} {t : Table} (hpage : .document_page ≠ t) (hjob : .job ≠ t)
    (hdocument : .document ≠ t) : with_pages env document extraction rows db t = db t := by
  rw [with_pages, inserted_all_ne _ _ hpage, with_job_ne hjob, Schema.effect_insert_ne _ _ hdocument]

/-- An upload is filed as it was read. -/
theorem cabinet_uploaded (hc : schema.Consistent db) {account : UserAccount} {case_id : Uuid}
    {c : Case} (h : Owns db account case_id c) {upload : Upload} {source : IngestSource}
    {extraction : ExtractionResult}
    (hlatest : ∀ d ∈ db .document, Document.created_at d ≤ env.now)
    (hnew : ∀ d ∈ db .document, Document.id d ≠ env.uuid 0)
    (hread : reading srv upload.data = .ok extraction) :
    cabinet_of (with_pages env (uploaded_document srv env case_id upload source extraction)
        extraction (page_rows env (env.uuid 0) extraction.pages) db) =
      (cabinet_of db).amend account.id case_id
        (Folder.file (filed_paper (env.uuid 0) upload extraction)) := by
  have hpaper : filed_paper (env.uuid 0) upload extraction =
      (document_response (uploaded_document srv env case_id upload source extraction),
        (page_rows env (env.uuid 0) extraction.pages).map (page_response [])) := by
    rw [shown_page_rows]
    rfl
  rw [hpaper]
  refine cabinet_filed hc h rfl hlatest hnew ?_ (page_rows_sorted env _ hread)
    (with_pages_ne (by decide) (by decide) (by decide)) ?_ ?_
    (with_pages_ne (by decide) (by decide) (by decide))
    (with_pages_ne (by decide) (by decide) (by decide))
  · intro p hp
    obtain ⟨i, hi, rfl⟩ := List.mem_mapIdx.mp hp
    rfl
  · rw [with_pages, inserted_all_ne _ _ (by decide), with_job_ne (by decide),
      Schema.effect_insert_self]
  · rw [with_pages, inserted_all_self, with_job_ne (by decide),
      Schema.effect_insert_ne _ _ (by decide)]

/-- **Each route does what the cabinet does**, on the rows behind it. -/
theorem CaseAccess.does {account : UserAccount} {route : Route Token} {reply : Reply Token}
    {row : CaseAuditEvent} (h : CaseAccess srv env account db route reply row db')
    (hc : schema.Consistent db) (hpassages : db .passage = []) (hbehind : Behind env.now db)
    (hnew : ∀ t, ∀ r ∈ db t, row_pk t r ≠ env.uuid 0) :
    (cabinet_of db).serve (reading srv) (env.uuid 0) env.now account.id route =
      some (reply, cabinet_of db') := by
  cases h with
  | create_case title court case_number =>
    -- a row laid in now is the latest, and comes first among the cases
    have hopened := cabinet_opened hc (c := new_case env account title court case_number)
      (hbehind .case_) (hnew .case_)
    rw [hopened]
    rfl
  | list_cases =>
    unfold Cabinet.serve cabinet_of
    rw [List.map_map]
    rfl
  | read_case case_id c howned =>
    rw [Cabinet.serve, folder_found hc howned]
    rfl
  | list_documents case_id c howned =>
    obtain rfl := howned.id
    rw [Cabinet.serve, folder_found hc howned, Option.map_some]
    unfold folder_of
    dsimp only
    rw [List.map_map]
    rfl
  | read_document case_id document_id c howned d hd hid hin =>
    obtain rfl := howned.id
    obtain rfl := hid
    -- the paper of this id is the document's, for an id is one row's
    have hpaper : (folder_of db c).documents.find? (fun paper => paper.1.id == d.id) =
        some (paper_of db d) := by
      unfold folder_of
      dsimp only
      rw [List.find?_map]
      have hfound : (documents_of db c.id).find?
          ((fun paper : Paper => paper.1.id == d.id) ∘ paper_of db) = some d := by
        refine find_unique (mem_documents_of.mpr ⟨hd, hin⟩) (beq_self_eq_true _) ?_
        intro d' hd' hid'
        exact hc.eq_of_pk (mem_documents_of.mp hd').1 hd (beq_iff_eq.mp hid')
      rw [hfound]
      rfl
    unfold Cabinet.serve
    simp only [folder_found hc howned, hpaper, Option.bind_eq_bind, Option.bind_some,
      passages_on_none hpassages]
    rfl
  | upload_document case_id upload c howned source extraction hread =>
    obtain rfl := howned.id
    have hread' : reading srv upload.data = .ok extraction := hread
    rw [cabinet_uploaded hc howned (hbehind .document) (hnew .document) hread']
    unfold Cabinet.serve
    simp only [folder_found hc howned, hread', Option.bind_eq_bind, Option.bind_some,
      Except.toOption]
    rfl
  | list_events case_id c howned =>
    obtain rfl := howned.id
    have htimeline : (events_of db c.id).map (event_response (loaded_of db (events_of db c.id))) =
        (events_of db c.id).map (entry_of db) :=
      List.map_congr_left fun e he => event_response_loaded hpassages he
    rw [Cabinet.serve, folder_found hc howned, htimeline]
    rfl
  | create_event case_id body c howned =>
    obtain rfl := howned.id
    -- the id is new, so no note points at it yet
    have hentry : entry_of db (new_event env account c.id body) = stated (env.uuid 0) body := by
      have hnotes := @notes_of_new _ (env.uuid 0) hc (hnew .case_event)
      unfold entry_of event_response notes_of
      dsimp only
      rw [show (new_event env account c.id body).id = env.uuid 0 from rfl, hnotes]
      rfl
    have hrecorded := cabinet_recorded hc howned (e := new_event env account c.id body) rfl
      (hbehind .case_event)
    rw [hrecorded, hentry]
    unfold Cabinet.serve
    simp only [folder_found hc howned, Option.bind_eq_bind, Option.bind_some]
    rfl
  | create_note case_id event_id body c howned e he hid hin =>
    obtain rfl := howned.id
    obtain rfl := hid
    -- the event is the case's, so its entry is in the folder
    have hfound : ((folder_of db c).timeline.find? (fun entry => entry.id == e.id)).isSome := by
      refine List.find?_isSome.mpr ⟨entry_of db e, ?_, beq_self_eq_true _⟩
      exact List.mem_map_of_mem (mem_events_of.mpr ⟨he, hin⟩)
    obtain ⟨entry, hentry⟩ := Option.isSome_iff_exists.mp hfound
    have hannotated := cabinet_annotated hc howned he hin
      (n := new_note env account e.id body) rfl (hbehind .case_event_note)
    rw [hannotated]
    unfold Cabinet.serve
    simp only [folder_found hc howned, hentry, Option.bind_eq_bind, Option.bind_some]
    rfl

/-! ### Reading a scan in -/

theorem order_by_map {α β : Type} {le : α → α → Bool} {le' : β → β → Bool} {f : α → β}
    {rows : List α} (h : ∀ a ∈ rows, ∀ b ∈ rows, le a b = le' (f a) (f b)) :
    order_by le' (rows.map f) = (order_by le rows).map f := by
  refine (List.map_insertionSort (fun a b => le a b = true) (fun a b => le' a b = true) f rows
    fun a ha b hb => ?_).symm
  rw [h a ha b hb]

theorem read_page_shown (results : List OcrPage) (p : DocumentPage) :
    read_page results (page_response [] p) = page_response [] (filled_page results p) := by
  unfold read_page filled_page page_response
  dsimp only
  split
  · rfl
  · cases by_number results p.page_number <;> rfl

section read
variable {document_id : Uuid} {results : List OcrPage}

/-- Whether a page is left blank does not depend on the order they are met in. -/
theorem all_read_congr {rows rows' : List DocumentPage} (h : ∀ p, p ∈ rows ↔ p ∈ rows') :
    ((rows.map (page_response [])).map (read_page results)).all (fun page => has_text page.text) =
      (rows'.map (filled_page results)).all (fun p => has_text p.text) := by
  refine Bool.eq_iff_iff.mpr ?_
  simp only [List.map_map, List.all_map, List.all_eq_true, Function.comp_apply, read_page_shown, h]
  rfl

theorem pages_of_read (h : OcrRead document_id results db db') (id : Uuid) :
    pages_of db' id = if id = document_id then (pages_of db id).map (filled_page results)
      else pages_of db id := by
  have hin : ∀ (g : DocumentPage → DocumentPage),
      (∀ p, (g p).document_id = p.document_id) → ∀ stored : List DocumentPage,
      (stored.map g).filter (fun p : DocumentPage => p.document_id == id) =
        (stored.filter (fun p : DocumentPage => p.document_id == id)).map g := by
    intro g hg stored
    rw [List.filter_map]
    refine congrArg (List.map g) (List.filter_congr fun p _ => ?_)
    rw [Function.comp_apply, hg]
  unfold pages_of
  rw [h.pages, read_pages, hin _ (fun p => by split <;> simp)]
  by_cases hid : id = document_id
  · subst hid
    rw [if_pos rfl]
    have hmap : ((db .document_page).filter fun p : DocumentPage => p.document_id == id).map
        (fun p => if p.document_id = id then filled_page results p else p) =
        ((db .document_page).filter fun p : DocumentPage => p.document_id == id).map
          (filled_page results) := by
      refine List.map_congr_left fun p hp => ?_
      rw [if_pos (beq_iff_eq.mp (List.mem_filter.mp hp).2)]
    rw [hmap]
    exact order_by_map fun a _ b _ => by simp
  · rw [if_neg hid]
    have hmap : ((db .document_page).filter fun p : DocumentPage => p.document_id == id).map
        (fun p => if p.document_id = document_id then filled_page results p else p) =
        (db .document_page).filter fun p : DocumentPage => p.document_id == id := by
      refine (List.map_congr_left fun p hp => ?_).trans (List.map_id _)
      have hother : DocumentPage.document_id p = id := beq_iff_eq.mp (List.mem_filter.mp hp).2
      rw [if_neg (by rwa [hother])]
      rfl
    rw [hmap]

/-- One document, when the status of one is set. -/
def with_status (document_id : Uuid) (status : OcrStatus) (d : Document) : Document :=
  if d.id = document_id then { d with ocr_status := status } else d

/-- The document is shown read, every other one as it was. -/
theorem paper_of_read (h : OcrRead document_id results db db') (d : Document) :
    paper_of db' (with_status document_id
      (read_status results (pages_in document_id (db .document_page))) d) =
      if d.id = document_id then read_paper results (paper_of db d) else paper_of db d := by
  unfold with_status
  by_cases hid : d.id = document_id
  · rw [if_pos hid, if_pos hid]
    have hshown : ((pages_of db d.id).map (page_response [])).map (read_page results) =
        ((pages_of db d.id).map (filled_page results)).map (page_response []) := by
      rw [List.map_map, List.map_map]
      exact List.map_congr_left fun p _ => read_page_shown results p
    have hmem : ∀ p, p ∈ pages_of db d.id ↔ p ∈ pages_in document_id (db .document_page) := by
      intro p
      rw [mem_pages_of, pages_in, List.mem_filter, beq_iff_eq, hid]
    have hall := @all_read_congr results _ _ hmem
    unfold paper_of
    rw [pages_of_read h, if_pos hid]
    unfold read_paper
    dsimp only
    rw [hall, hshown]
    rfl
  · rw [if_neg hid, if_neg hid]
    unfold paper_of
    rw [pages_of_read h, if_neg hid]

theorem documents_of_read (h : OcrRead document_id results db db') (case_id : Uuid) :
    documents_of db' case_id = (documents_of db case_id).map (with_status document_id
      (read_status results (pages_in document_id (db .document_page)))) := by
  have hcase : ∀ status (d : Document), (with_status document_id status d).case_id = d.case_id := by
    intro status d
    unfold with_status
    split <;> rfl
  have hcreated : ∀ status (d : Document),
      (with_status document_id status d).created_at = d.created_at := by
    intro status d
    unfold with_status
    split <;> rfl
  unfold documents_of
  rw [h.documents]
  show order_by _ (((db .document).map (with_status document_id _)).filter _) = _
  rw [List.filter_map]
  have hfilter : ∀ status, (db .document).filter
      ((fun d : Document => d.case_id == case_id) ∘ with_status document_id status) =
      (db .document).filter fun d : Document => d.case_id == case_id :=
    fun status => List.filter_congr fun d _ => by rw [Function.comp_apply, hcase]
  rw [hfilter]
  exact order_by_map fun a _ b _ => by rw [hcreated, hcreated]

/-- A scan is read in where it is filed. -/
theorem cabinet_read (h : OcrRead document_id results db db') :
    cabinet_of db' = fun account => (cabinet_of db account).map
      (Folder.read_in document_id results) := by
  have hcases : db' .case_ = db .case_ := h.others _ (by decide) (by decide)
  have htimeline : ∀ c : Case, (events_of db' c.id).map (entry_of db') =
      (events_of db c.id).map (entry_of db) := by
    intro c
    unfold events_of entry_of
    rw [h.others .case_event (by decide) (by decide),
      h.others .case_event_note (by decide) (by decide)]
  have hfolder : ∀ c, folder_of db' c = (folder_of db c).read_in document_id results := by
    intro c
    have hpapers : ((documents_of db c.id).map (with_status document_id
        (read_status results (pages_in document_id (db .document_page))))).map (paper_of db') =
        ((documents_of db c.id).map (paper_of db)).map fun paper =>
          if paper.1.id = document_id then read_paper results paper else paper := by
      rw [List.map_map, List.map_map]
      exact List.map_congr_left fun d _ => paper_of_read h d
    unfold folder_of Folder.read_in
    dsimp only
    rw [htimeline, documents_of_read h, hpapers]
  funext account
  unfold cabinet_of cases_owned
  rw [hcases, List.map_map]
  exact List.map_congr_left fun c _ => hfolder c

end read

/-! ### Deleting an account -/

section erased
variable {id : Uuid}

/-- The rows that a deletion neither takes nor touches are met as before. -/
theorem filter_without_account {t : Table} {p : Row t → Bool}
    (hkept : ∀ r ∈ db t, detached (schema.doomed db .user_account id) t r = r)
    (hstay : ∀ r ∈ db t, p r = true → (t, row_pk t r) ∉ schema.doomed db .user_account id) :
    (without_account db id t).filter p = (db t).filter p := by
  have hrows : without_account db id t =
      (db t).filter (fun r => decide ((t, row_pk t r) ∉ schema.doomed db .user_account id)) := by
    unfold without_account
    rw [Schema.effect_remove]
    refine (List.map_congr_left fun r hr => ?_).trans (List.map_id _)
    rw [null_out_eq_detached]
    exact hkept r (List.mem_filter.mp hr).1
  rw [hrows, List.filter_filter]
  refine List.filter_congr fun r hr => ?_
  cases hp : p r with
  | false => rfl
  | true =>
    rw [Bool.true_and]
    exact decide_eq_true (hstay r hr hp)

/-- Another account's case file is as it was. -/
theorem folder_without_account (hc : schema.Consistent db) (hown : OneOwner db) {c : Case}
    (hmem : c ∈ db .case_) (hne : c.owner_id ≠ id) :
    folder_of (without_account db id) c = folder_of db c := by
  have hdocument : ∀ d ∈ db .document, Document.case_id d = c.id →
      OwnedBy db c.owner_id .document d := fun d _ hin => ⟨c, hmem, hin.symm, rfl⟩
  have hentry : ∀ e ∈ db .case_event, CaseEvent.case_id e = c.id →
      OwnedBy db c.owner_id .case_event e := by
    intro e he hin
    obtain ⟨c', hc', hid, hauthor⟩ := (hown.events e he).author
    obtain rfl : c' = c := hc.eq_of_pk hc' hmem (hid.trans hin)
    exact hauthor
  have hdocuments : documents_of (without_account db id) c.id = documents_of db c.id := by
    unfold documents_of
    rw [filter_without_account (fun _ _ => rfl) fun d hd hin =>
      stays_of_owned hc hown hne hd (hdocument d hd (beq_iff_eq.mp hin))]
  have hevents : events_of (without_account db id) c.id = events_of db c.id := by
    unfold events_of
    rw [filter_without_account (fun e he => detached_on_timeline hown (.inl rfl) he _) fun e he hin =>
      stays_of_owned hc hown hne he (hentry e he (beq_iff_eq.mp hin))]
  unfold folder_of
  rw [hdocuments, hevents]
  refine congrArg₂ (fun documents timeline => (⟨_, documents, timeline⟩ : Folder))
    (List.map_congr_left fun d hd => ?_) (List.map_congr_left fun e he => ?_)
  · -- its pages go with it
    obtain ⟨hd, hin⟩ := mem_documents_of.mp hd
    have hpage : ∀ p ∈ db .document_page, DocumentPage.document_id p = d.id →
        OwnedBy db c.owner_id .document_page p :=
      fun p _ hof => ⟨d, hd, hof.symm, hdocument d hd hin⟩
    unfold paper_of pages_of
    rw [filter_without_account (fun _ _ => rfl) fun p hp hof =>
      stays_of_owned hc hown hne hp (hpage p hp (beq_iff_eq.mp hof))]
  · -- its notes are its author's
    obtain ⟨he, hin⟩ := mem_events_of.mp he
    have hnote : ∀ n ∈ db .case_event_note, CaseEventNote.event_id n = e.id →
        OwnedBy db c.owner_id .case_event_note n := by
      intro n hn hof
      obtain ⟨e', he', hid, hauthor⟩ := hown.notes n hn
      obtain rfl : e' = e := hc.eq_of_pk he' he (hid.trans hof)
      exact Option.some.inj (hauthor.symm.trans (hentry e' he' hin))
    have hnotes : (without_account db id .case_event_note).filter
        (fun n : CaseEventNote => n.event_id == e.id) =
        (db .case_event_note).filter (fun n : CaseEventNote => n.event_id == e.id) :=
      filter_without_account (fun _ _ => rfl) fun n hn hof =>
        stays_of_owned hc hown hne hn (hnote n hn (beq_iff_eq.mp hof))
    unfold entry_of event_response notes_of
    dsimp only
    rw [hnotes]
    rfl

/-- The drawer of a deleted account is empty, and no other is touched. -/
theorem cabinet_erased (hc : schema.Consistent db) (hown : OneOwner db) :
    cabinet_of (without_account db id) = (cabinet_of db).put id [] := by
  have hcases : without_account db id .case_ =
      (db .case_).filter (fun c : Case => decide (c.owner_id ≠ id)) :=
    owned_without_account hc rfl (by decide)
  funext a
  unfold Cabinet.put
  by_cases ha : a = id
  · subst ha
    rw [Function.update_self]
    unfold cabinet_of cases_owned
    rw [hcases, List.filter_filter]
    have hnone : (db .case_).filter (fun c : Case => c.owner_id == a && decide (c.owner_id ≠ a)) =
        [] := List.filter_eq_nil_iff.mpr fun c _ => by simp
    rw [hnone]
    rfl
  · rw [Function.update_of_ne ha]
    have howned : cases_owned (without_account db id) a = cases_owned db a := by
      unfold cases_owned
      rw [hcases, List.filter_filter]
      refine congrArg _ (List.filter_congr fun c _ => ?_)
      by_cases howner : Case.owner_id c = a
      · simp [howner, ha]
      · simp [howner]
    unfold cabinet_of
    rw [howned]
    refine List.map_congr_left fun c hcmem => ?_
    obtain ⟨hmem, howner⟩ := mem_cases_owned.mp hcmem
    refine folder_without_account hc hown hmem ?_
    rwa [howner]

end erased

/-! ### Every other request -/

theorem SameFiles.trans {db'' : Database} (h : SameFiles db db') (h' : SameFiles db' db'') :
    SameFiles db db'' where
  cases := h'.cases.trans h.cases
  documents := h'.documents.trans h.documents
  pages := h'.pages.trans h.pages
  events := h'.events.trans h.events
  notes := h'.notes.trans h.notes

/-- No statement of another route meets a case file. -/
theorem files_outside {req : Request Token} {wr : Write Row Patch Uuid}
    (hroute : req.route.on_cases = false) (hkept : req.route.deletes_account = false)
    (hown : OneOwner db) (hp : permits srv env req.route (.write wr)) :
    SameFiles db (schema.effect (schema.resolve db wr) db) := by
  have huploads : req.route.uploads = true → False := by
    intro h
    obtain ⟨credentials, route⟩ := req
    cases route <;> first | exact absurd h Bool.false_ne_true | cases hroute
  refine .of_tables fun t ht => ?_
  cases wr with
  | insert t' row =>
    refine Schema.effect_insert_ne _ _ ?_
    rintro rfl
    by_cases hfile : t' ∈ case_file
    · rw [on_cases_of_insert hfile hp.2] at hroute
      cases hroute
    · -- a document or a page
      cases t' <;> first
        | exact absurd ht (by decide)
        | exact hfile (by decide)
        | exact huploads hp.2.1
        | exact huploads hp.2
  | update t' id p =>
    refine Schema.effect_update_ne _ _ _ ?_
    rintro rfl
    cases t' <;> first | exact absurd ht (by decide) | exact p.elim | exact hp
  | delete t' i =>
    -- no account is deleted, so the row goes alone, and it is in none of the files
    have hleaf := (leaf_of_permitted hp).resolve_left (by
      rintro rfl
      have hdeletes : req.route.deletes_account = true := hp
      rw [hkept] at hdeletes
      cases hdeletes)
    have hne : ∀ r : Row t, (t, schema.pk t r) ∉ schema.doomed db t' i := by
      intro r hgone
      have htt : t = t' := (Prod.mk.inj
        (Schema.doomed_leaf schema_stratified schema_regular.ordered hleaf hgone)).1
      subst htt
      cases t <;> first | exact absurd ht (by decide) | exact hp
    show schema.effect (.remove (schema.doomed db t' i)) db t = db t
    rw [Schema.effect_remove, List.filter_eq_self.mpr fun r _ => decide_eq_true (hne r)]
    refine (List.map_congr_left fun r hr => ?_).trans (List.map_id _)
    rw [null_out_eq_detached]
    cases t <;> first | rfl | exact absurd ht (by decide) | skip
    exact detached_on_timeline hown (.inl rfl) hr _

theorem run_outside_files {req : Request Token} {w : Committed} (hc : schema.Consistent w.db)
    (hown : OneOwner w.db) (hroute : req.route.on_cases = false)
    (hkept : req.route.deletes_account = false) :
    SameFiles w.db ((Step.request env req).run srv w).db := by
  refine run_outside (SameFiles w.db) hc hown ?_ ?_ (.refl _)
  · rintro env' req' heq
    cases heq
    exact hroute
  · intro wr db _ hown hp h
    exact h.trans (files_outside hroute hkept hown hp)

/-! ### One step -/

/-- A transaction that fails leaves the rows as they were. -/
theorem get_session_error {α : Type} {p : Handler α} {w : Committed} {e : Exc}
    (h : (get_session env p w).1 = .error e) : (get_session env p w).2.db = w.db := by
  unfold get_session transact at h ⊢
  generalize p.exec (perform schema run_ext) _ = ended at h ⊢
  obtain ⟨r, s⟩ := ended
  cases r with
  | error e => rfl
  | ok a =>
    dsimp only at h ⊢
    split at h
    · cases h
    · next hlost =>
      rw [if_neg hlost]
      rfl

theorem serve_refused {req : Request Token} {w : Committed}
    (h : (serve srv env req w).1.refuses) : (serve srv env req w).2.db = w.db := by
  unfold serve at h
  cases hr : (get_session env (respond srv env req) w).1 with
  | ok reply =>
    rw [hr] at h
    exact h.elim
  | error e => exact get_session_error hr

/-! ### Nothing is recorded ahead of its time -/

theorem SameFiles.behind (h : SameFiles db db') {now : Nat} (hbehind : Behind now db) :
    Behind now db' := by
  intro t r hr
  cases t
  case case_ =>
    rw [h.cases] at hr
    exact hbehind .case_ r hr
  case document =>
    rw [h.documents] at hr
    exact hbehind .document r hr
  case case_event =>
    rw [h.events] at hr
    exact hbehind .case_event r hr
  case case_event_note =>
    rw [h.notes] at hr
    exact hbehind .case_event_note r hr
  all_goals exact Nat.zero_le _

theorem Behind.insert {now : Nat} (h : Behind now db) {t : Table} {row : Row t}
    (hrow : recorded_at t row ≤ now) : Behind now (schema.effect (.insert t row) db) :=
  @inserted_row _ t row (fun t r => recorded_at t r ≤ now) h hrow

/-- An access puts nothing in that is later than the request. -/
theorem CaseAccess.behind {account : UserAccount} {route : Route Token} {reply : Reply Token}
    {row : CaseAuditEvent} (h : CaseAccess srv env account db route reply row db')
    (hbehind : Behind env.now db) :
    Behind env.now (schema.effect (.insert .case_audit_event row) db') := by
  refine Behind.insert ?_ (Nat.zero_le _)
  cases h with
  | create_case => exact hbehind.insert (Nat.le_refl _)
  | upload_document case_id upload c howned source extraction =>
    have hdocument : Behind env.now (schema.effect (.insert .document
        (uploaded_document srv env case_id upload source extraction)) db) :=
      hbehind.insert (Nat.le_refl _)
    intro t r hr
    by_cases hpage : .document_page = t
    · subst hpage
      exact Nat.zero_le _
    by_cases hjob : .job = t
    · subst hjob
      exact Nat.zero_le _
    rw [with_pages, inserted_all_ne _ _ hpage, with_job_ne hjob] at hr
    exact hdocument t r hr
  | create_event => exact hbehind.insert (Nat.le_refl _)
  | create_note => exact hbehind.insert (Nat.le_refl _)
  | list_cases => exact hbehind
  | read_case => exact hbehind
  | list_documents => exact hbehind
  | read_document => exact hbehind
  | list_events => exact hbehind

theorem Behind.without_account {now : Nat} (h : Behind now db) (id : Uuid) :
    Behind now (without_account db id) := by
  intro t r hr
  obtain ⟨r₀, hr₀, _, rfl⟩ := mem_remove.mp hr
  have hsame : recorded_at t (detached (schema.doomed db .user_account id) t r₀) =
      recorded_at t r₀ := by
    cases t <;> rfl
  rw [hsame]
  exact h t r₀ hr₀

theorem Behind.read {now : Nat} (h : Behind now db) {document_id : Uuid} {results : List OcrPage}
    (hread : OcrRead document_id results db db') : Behind now db' := by
  intro t r hr
  by_cases hdocument : .document = t
  · subst hdocument
    rw [hread.documents] at hr
    obtain ⟨d, hd, rfl⟩ := List.mem_map.mp hr
    have hsame : recorded_at .document (with_status document_id
        (read_status results (pages_in document_id (db .document_page))) d) =
        recorded_at .document d := by
      unfold with_status
      split <;> rfl
    exact hsame.le.trans (h .document d hd)
  by_cases hpage : .document_page = t
  · subst hpage
    exact Nat.zero_le _
  rw [hread.others t hdocument hpage] at hr
  exact h t r hr

/-! ### One step -/

section step
variable {w : Committed}

/-- What is shown of a step, the cabinet does; and nothing is ahead of the clock. -/
def Mirrored (srv : Server Token) (w : Committed) (s : Step Token) : Prop :=
  (∃ glimpse, Glimpsed srv w s glimpse ∧
    Cabinet.Does (reading srv) (cabinet_of w.db) glimpse (cabinet_of (s.run srv w).db)) ∧
  Behind s.env.now (s.run srv w).db

theorem mirrored_refused {req : Request Token} (hbehind : Behind env.now w.db)
    (h : (serve srv env req w).1.refuses) : Mirrored srv w (.request env req) := by
  have hsame : ((Step.request env req).run srv w).db = w.db := serve_refused h
  unfold Mirrored
  rw [hsame]
  rcases serve_refuses_iff.mp h with hlost | hrefused
  · exact ⟨⟨.quiet, .lost hlost, .quiet _⟩, hbehind⟩
  · exact ⟨⟨.quiet, .refused hrefused, .quiet _⟩, hbehind⟩

theorem mirrored_on_cases {req : Request Token} (hroute : req.route.on_cases = true)
    (hc : schema.Consistent w.db) (hown : OneOwner w.db) (hbehind : Behind env.now w.db)
    (hnew : ∀ t, ∀ r ∈ w.db t, row_pk t r ≠ env.uuid 0) : Mirrored srv w (.request env req) := by
  rcases @serve_on_cases _ srv env _ hroute w with
    ⟨auth, reply, row, db, hauth, hacc, hsuccess, hdb⟩ | ⟨hrefused, _⟩
  · have hafter : ((Step.request env req).run srv w).db =
        schema.effect (.insert .case_audit_event row) db := hdb
    obtain ⟨hcommits, hreply⟩ := serve_success_iff.mp hsuccess
    unfold Mirrored
    rw [hafter]
    refine ⟨⟨_, .answered hroute hauth hcommits hreply, .answered ?_⟩, hacc.behind hbehind⟩
    rw [cabinet_audited]
    exact hacc.does hc hown.passages hbehind hnew
  · exact mirrored_refused hbehind hrefused

/-- A deletion that went through, as it left the rows. -/
theorem serve_erased {req : Request Token} (hroute : req.route.deletes_account = true)
    (hc : schema.Consistent w.db) :
    (∃ auth db, SignedIn srv env req.credentials w.db auth ∧ schema.Consistent db ∧
      (∀ t, .user_mfa ≠ t → .recovery_code ≠ t → db t = w.db t) ∧
      (serve srv env req w).1.succeeded = true ∧
      (serve srv env req w).2.db = without_account db auth.account.id) ∨
    (serve srv env req w).1.refuses := by
  obtain ⟨credentials, route⟩ := req
  cases route <;> try exact absurd hroute Bool.false_ne_true
  case delete_own_account password mfa_code acknowledge =>
    let P : Response Token → Committed → Prop := fun resp w' =>
      (∃ auth db, SignedIn srv env credentials w.db auth ∧ schema.Consistent db ∧
        (∀ t, .user_mfa ≠ t → .recovery_code ≠ t → db t = w.db t) ∧ resp.succeeded = true ∧
        w'.db = without_account db auth.account.id) ∨ resp.refuses
    have hP : P (serve srv env ⟨credentials, .delete_own_account password mfa_code acknowledge⟩ w).1
        (serve srv env ⟨credentials, .delete_own_account password mfa_code acknowledge⟩ w).2 := by
      have herr : ∀ e, P (answer (.delete_own_account password mfa_code acknowledge) (.error e))
          ⟨w.db, w.ext⟩ := fun e => .inr (answer_error_refuses _ _)
      refine serve_wps (wps_current_user_bind (fun e => .inr (answer_error_refuses _ _))
        fun auth hauth => ?_)
      refine wps_require_bind (fun _ => .inr (answer_error_refuses _ _)) fun _ => ?_
      refine wps_require_bind (fun _ => .inr (answer_error_refuses _ _)) fun _ => ?_
      refine wps_require_bind (fun _ => .inr (answer_error_refuses _ _)) fun _ => ?_
      -- what the check of the code leaves is consistent, and has the same case files
      refine wps_bind (wps_consistent hc (wps_reauthenticate
        (fun e _ _ => .inr (answer_error_refuses _ _)) fun _ db faults hre hcdb => ?_))
      refine wps_bind (wps_bind (wp_snapshot.mpr ((wp_pure _).mpr ?_)))
      refine wps_bind (wps_delete_account (fun v s' _ => .inr (answer_error_refuses _ _))
        fun summary s' hdb _ => ?_)
      refine wps_bind (wps_purge_objects fun n => (wp_pure _).mpr ⟨fun _ => ?_, fun _ => ?_⟩)
      · exact .inl ⟨auth, db, hauth, hcdb, fun t hm hr => hre.other hm hr, rfl, hdb⟩
      · exact .inr trivial
    exact hP

theorem mirrored_deletion {req : Request Token} (hroute : req.route.deletes_account = true)
    (hc : schema.Consistent w.db) (hown : OneOwner w.db) (hbehind : Behind env.now w.db) :
    Mirrored srv w (.request env req) := by
  rcases @serve_erased _ srv env w _ hroute hc with
    ⟨auth, db, hauth, hcdb, hother, hsuccess, hdb⟩ | hrefused
  · have hafter : ((Step.request env req).run srv w).db = without_account db auth.account.id := hdb
    have hfiles : SameFiles w.db db := by
      refine .of_tables fun t ht => hother t ?_ ?_ <;>
        (rintro rfl; exact absurd ht (by decide))
    have howndb : OneOwner db := by
      refine hown.congr fun t ht => hother t ?_ ?_ <;>
        (rintro rfl; exact absurd ht (by decide))
    obtain ⟨hcommits, hdone⟩ := serve_succeeded_iff.mp hsuccess
    unfold Mirrored
    rw [hafter]
    refine ⟨⟨_, .erased hroute hauth hcommits hdone, ?_⟩, (hfiles.behind hbehind).without_account _⟩
    rw [cabinet_erased hcdb howndb, hfiles.cabinet]
    exact .erased _ _
  · exact mirrored_refused hbehind hrefused

theorem mirrored_elsewhere {req : Request Token} (hroute : req.route.on_cases = false)
    (hkept : req.route.deletes_account = false) (hc : schema.Consistent w.db)
    (hown : OneOwner w.db) (hbehind : Behind env.now w.db) :
    Mirrored srv w (.request env req) := by
  have hfiles := @run_outside_files _ srv env req w hc hown hroute hkept
  refine ⟨⟨.quiet, .elsewhere hroute hkept, ?_⟩, hfiles.behind hbehind⟩
  rw [hfiles.cabinet]
  exact .quiet _

/-- What the store gives back is what it holds. -/
theorem stored_of_get {key : String} {data : Bytes} {o : Outside}
    (h : (run_ext (Ext.get key) o).1 = .ok data) : o.store key = some data := by
  unfold run_ext at h
  dsimp only at h
  split at h
  · next hstored =>
    cases h
    exact hstored
  · cases h
  · cases h

theorem mirrored_ocr {document_id : Uuid} {engine : OcrEngine} (hc : schema.Consistent w.db)
    (hbehind : Behind env.now w.db) : Mirrored srv w (.ocr env document_id engine) := by
  let P : Except Exc Nat → Committed → Prop := fun r w' => ∀ n, r = .ok n →
    ∃ data pages, (∃ d ∈ w.db .document, Document.id d = document_id ∧
      w.ext.store (Document.storage_key d) = some data) ∧ engine data = .ok pages ∧
      OcrRead document_id pages w.db w'.db
  have hP : P (get_session env (run_ocr_for_document document_id engine) w).1
      (get_session env (run_ocr_for_document document_id engine) w).2 := by
    refine get_session_wps (wps_run_ocr_for_document hc ?_ ?_ ?_)
    · intro e s' _ n hn
      cases hn
    · intro c s' _ n hn
      cases hn
    · intro d data pages n s' hd hid hgot hread hocr _
      refine ⟨fun _ n' _ => ?_, fun _ n' hn' => by cases hn'⟩
      have hstored : (w.begin env).ext.store d.storage_key = some data := stored_of_get hgot
      exact ⟨data, pages, ⟨d, hd, hid, hstored⟩, hread, hocr⟩
  cases hr : (get_session env (run_ocr_for_document document_id engine) w).1 with
  | ok n =>
    obtain ⟨data, pages, hstored, hread, hocr⟩ := hP n hr
    have hread' : OcrRead document_id pages w.db
        ((Step.ocr env document_id engine : Step Token).run srv w).db := hocr
    refine ⟨⟨_, .read_in hr hstored hread, ?_⟩, hbehind.read hread'⟩
    rw [cabinet_read hread']
    exact .read_in _ _ _
  | error e =>
    have hsame : ((Step.ocr env document_id engine).run srv w).db = w.db := get_session_error hr
    unfold Mirrored
    rw [hsame]
    exact ⟨⟨.quiet, .unread hr, .quiet _⟩, hbehind⟩

end step

/-! ### The run -/

/-- A history is a run of the server as a labelled system. -/
theorem Reaches.labelled {C : History Token → Step Token → Prop} {h : History Token}
    (hr : Reaches srv C .start h) :
    Run (fun w s w' => w' = s.run srv w) (fun past w s => C ⟨past, w⟩ s) Committed.empty
      h.past h.world := by
  induction hr with
  | refl => exact .start
  | step s _ hs ih => exact ih.next s hs rfl

theorem reaches_of_labelled {C : History Token → Step Token → Prop}
    {past : List (Step Token × Committed)} {w : Committed}
    (hr : Run (fun w s w' => w' = s.run srv w) (fun past w s => C ⟨past, w⟩ s) Committed.empty
      past w) : Reaches srv C .start ⟨past, w⟩ := by
  induction hr with
  | start => exact .refl
  | next s _ hs hw ih =>
    subst hw
    exact .step s ih hs

/-- Every step of an orderly run is one of the cabinet. -/
theorem mirrored {h : History Token} (hr : Reaches srv (Orderly srv) .start h)
    (hbehind : ∀ now, (∀ p ∈ h.past, p.1.env.now ≤ now) → Behind now h.world.db) {s : Step Token}
    (hs : Orderly srv h s) : Mirrored srv h.world s := by
  have hc := hr.consistent
  have hown := (hr.mono fun _ _ _ => trivial).oneOwner
  have hnow := hbehind _ hs.clock
  cases s with
  | ocr env document_id engine => exact mirrored_ocr hc hnow
  | request env req =>
    by_cases hroute : req.route.on_cases = true
    · refine mirrored_on_cases hroute hc hown hnow fun t r hr => ?_
      exact (hs.fresh env req rfl).ids _ h.world_mem_worlds t r hr 0
    · rw [Bool.not_eq_true] at hroute
      by_cases hdeletes : req.route.deletes_account = true
      · exact mirrored_deletion hdeletes hc hown hnow
      · exact mirrored_elsewhere hroute (Bool.not_eq_true _ ▸ hdeletes) hc hown hnow

/-- Nothing in the case files is ahead of the clock. -/
theorem Reaches.behind {h : History Token} (hr : Reaches srv (Orderly srv) .start h) :
    ∀ now, (∀ p ∈ h.past, p.1.env.now ≤ now) → Behind now h.world.db := by
  induction hr with
  | refl => exact fun _ _ t r hr => by cases hr
  | @step h s hr hs ih =>
    intro now hnow
    have hlatest : s.env.now ≤ now := hnow (s, h.world) List.mem_cons_self
    exact (mirrored hr ih hs).2.mono hlatest

/-- An honest script is orderly when its times are. -/
theorem Sample.reaches_orderly {ls : List Sample.Line} (h : Sample.honest ls = true)
    (hclock : ls.Pairwise (fun later earlier => earlier.now ≤ later.now)) :
    Reaches Sample.server (Orderly Sample.server) .start (Sample.play ls) := by
  induction ls with
  | nil => exact .refl
  | cons l earlier ih =>
    obtain ⟨hlater, hrest⟩ := List.pairwise_cons.mp hclock
    have hhonest := Sample.honest_line h
    have hearlier : Sample.honest earlier = true := by
      simp only [Sample.honest, Bool.and_eq_true] at h
      exact h.1
    refine .step l.step (ih hearlier hrest) ⟨fun env req heq => ?_, fun p hp => ?_⟩
    · rw [heq] at hhonest
      exact hhonest.1
    · obtain ⟨l', hl', heq⟩ := Sample.past_play hp
      rw [heq]
      exact hlater l' hl'

/-- A document, two entries that are not recorded in the order they happened in, a
    correction to the first, and a look at the timeline. -/
def filing : List Sample.Line :=
  [⟨8, 107 * second, ⟨Sample.bearer (101 * second), .list_events 12288#128⟩⟩,
    ⟨7, 106 * second, ⟨Sample.bearer (101 * second),
      .create_note 12288#128 20480#128 "It was the 5th."⟩⟩,
    ⟨6, 105 * second, ⟨Sample.bearer (101 * second),
      .create_event 12288#128 ⟨"hearing", 1000, none, none⟩⟩⟩,
    ⟨5, 104 * second, ⟨Sample.bearer (101 * second),
      .create_event 12288#128 ⟨"exchange", 2000, none, none⟩⟩⟩,
    ⟨4, 103 * second, ⟨Sample.bearer (101 * second), .upload_document 12288#128 one_page⟩⟩,
    ⟨3, 102 * second, ⟨Sample.bearer (101 * second), .create_case "In re A" none none⟩⟩,
    ⟨2, 101 * second, ⟨none, .login "a@x.org" "correct horse"⟩⟩,
    ⟨1, 100 * second, ⟨none, .register "a@x.org" "correct horse" none⟩⟩]

/-- What the drawers hold after it: one document, and the entries as they happened. -/
def filing_in_order : Prop :=
  Sample.honest filing = true ∧
    (cabinet_of (Sample.play filing).world.db 4096#128).map (fun f =>
      (f.documents.length, f.timeline.map fun e => (e.summary, e.notes.length))) =
      [(1, [("hearing", 0), ("exchange", 1)])]

instance : Decidable filing_in_order := inferInstanceAs (Decidable (_ ∧ _))

end CounselReady
