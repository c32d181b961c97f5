import CounselReady.Guarantees.ActiveSecret
import CounselReady.Specs.Upload

/-! # Uploads of One Document

    An upload looks for the document in the case, stores the bytes, reads the PDF,
    and only then inserts the row. Two uploads of one file can both find nothing; the
    unique index lets one of them through, and the other is not told of a duplicate.

    * `Unraced`: what a commit must find for that not to happen.
    * `duplicates_named`: while commits find that, whoever comes later is told
      which document is there.
-/

namespace CounselReady

open Relational Framework Handler Prog

variable {Token : Type} {srv : Server Token}

/-! ### What an upload has exchanged -/

/-- The duplicate check. -/
def same_document (case_id : Uuid) (digest : String) : Document → Bool :=
  fun d => d.case_id == case_id && d.content_hash == digest

def duplicate_answer (existing_id : Uuid) : Exc :=
  .http ⟨409, .duplicate "This document is already in the case." existing_id, []⟩

/-- Nothing but other tables has been read. -/
def Unchecked (l : Trace) : Prop := ∀ x ∈ l, ∃ t p, x.1 = .select t p ∧ t ≠ .document

/-- The duplicate check has been made, before anything was written, and has had this answer. -/
def Checked (case_id : Uuid) (digest : String) (rows : List Document) (l : Trace) : Prop :=
  ∃ later before, l = later ++ ⟨.select .document (same_document case_id digest), rows⟩ :: before ∧
    Unchecked before

/-- An upload that goes on has found no duplicate, as far as it has looked. -/
def FoundNone (case_id : Uuid) (digest : String) (l : Trace) : Prop :=
  Unchecked l ∨ Checked case_id digest [] l

/-- How an upload raises: before its check, because of what the check has found, or after a
    check that found nothing. -/
def UploadRaises (case_id : Uuid) (digest : String) (l : Trace) (e : Exc) : Prop :=
  Unchecked l ∨ ∃ rows, Checked case_id digest rows l ∧
    (rows = [] ∨ (∃ d : Document, rows = [d] ∧ e = duplicate_answer d.id) ∨ 1 < rows.length)

/-- A document is inserted into this case, with this digest. -/
def InsertsOwn (case_id : Uuid) (digest : String) : Op Row Patch Uuid Ext → Prop
  | .write (.insert .document d) =>
      Document.case_id d = case_id ∧ Document.content_hash d = digest
  | _ => True

abbrev UploadCourse {α : Type} (case_id : Uuid) (digest : String) (Q : Trace → α → Prop)
    (E : Trace → Exc → Prop) (l : Trace) (p : Handler α) : Prop :=
  Course remember (Keyed schema)
    (fun l o => FoundNone case_id digest l ∧ InsertsOwn case_id digest o) Q E l p

section course
variable {case_id : Uuid} {digest : String} {l : Trace} {α β : Type}

theorem Unchecked.cons (h : Unchecked l) {t : Table} {p : Row t → Bool} {rows : List (Row t)}
    (ht : t ≠ .document) : Unchecked (⟨.select t p, rows⟩ :: l) := by
  intro x hx
  rcases List.mem_cons.mp hx with rfl | hold
  · exact ⟨t, p, rfl, ht⟩
  · exact h x hold

theorem Checked.cons {rows : List Document} (h : Checked case_id digest rows l)
    (x : Exchange (db_sig Row Patch Uuid Answer)) : Checked case_id digest rows (x :: l) := by
  obtain ⟨later, before, rfl, hbefore⟩ := h
  exact ⟨x :: later, before, rfl, hbefore⟩

/-- Reading other tables leaves the check to be made. -/
theorem course_elsewhere {Q : Trace → α → Prop} {E : Trace → Exc → Prop} {p : Handler α}
    (hp : Confined (fun o => ∃ t q, o = .select t q ∧ t ≠ .document) p) (hl : Unchecked l)
    (hQ : ∀ l a, Unchecked l → Q l a) (hE : ∀ l e, Unchecked l → E l e) :
    UploadCourse case_id digest Q E l p := by
  refine hp.course (I := Unchecked) (fun l o hI ho => ⟨.inl hI, ?_⟩) (fun l o r hI ho => ?_)
    hQ hE hl
  · obtain ⟨t, q, rfl, _⟩ := ho
    trivial
  · obtain ⟨t, q, rfl, ht⟩ := ho
    exact hI.cons ht

/-- After a check that found nothing, the rest inserts the document. -/
theorem course_checked {Q : Trace → α → Prop} {E : Trace → Exc → Prop} {p : Handler α}
    (hp : Confined (InsertsOwn case_id digest) p) (hl : Checked case_id digest [] l)
    (hQ : ∀ l a, Checked case_id digest [] l → Q l a)
    (hE : ∀ l e, Checked case_id digest [] l → E l e) : UploadCourse case_id digest Q E l p :=
  hp.course (I := Checked case_id digest []) (fun _ _ hI ho => ⟨.inr hI, ho⟩)
    (fun _ _ _ hI _ => hI.cons _) hQ hE hl

theorem course_select_one_bind {Q : Trace → β → Prop} {E : Trace → Exc → Prop} {t : Table}
    {p : Row t → Bool} {f : Option (Row t) → Handler β} (hl : FoundNone case_id digest l)
    (hnone : UploadCourse case_id digest Q E (⟨.select t p, []⟩ :: l) (f none))
    (hsome : ∀ r' r, schema.pk t r = schema.pk t r' → p r = true →
      UploadCourse case_id digest Q E (⟨.select t p, [r']⟩ :: l) (f (some r')))
    (hmany : ∀ rows : List (Row t), 1 < rows.length →
      E (⟨.select t p, rows⟩ :: l) .multiple_results_found) :
    UploadCourse case_id digest Q E l (select_one t p >>= f) := by
  refine (course_bind _ _).mpr ((course_bind _ _).mpr ⟨⟨hl, trivial⟩, fun rows hrows => ?_⟩)
  match rows with
  | [] => exact hnone
  | [r'] =>
    obtain ⟨r, hpk, hr⟩ := hrows r' List.mem_cons_self
    exact hsome r' r hpk hr
  | _ :: _ :: rest => exact hmany _ (Nat.succ_lt_succ (Nat.succ_pos rest.length))

theorem course_some_or_bind {Q : Trace → β → Prop} {E : Trace → Exc → Prop} {x : Option α} {e : Exc}
    {f : α → Handler β} (hnone : x = none → E l e)
    (hsome : ∀ a, x = some a → UploadCourse case_id digest Q E l (f a)) :
    UploadCourse case_id digest Q E l (some_or x e >>= f) := by
  cases x with
  | none => exact hnone rfl
  | some a => exact hsome a rfl

end course

/-! ### The route -/

theorem confined_gate {credentials : Option Token} {env : Env} :
    Confined (fun o => ∃ t q, o = .select t q ∧ t ≠ .document)
      (current_user srv env credentials) := by
  have hread : ∀ {t : Table} {q : Row t → Bool}, t ≠ .document →
      ∃ t' q', (Op.select t q : Op Row Patch Uuid Ext) = .select t' q' ∧ t' ≠ .document :=
    fun ht => ⟨_, _, rfl, ht⟩
  refine confined_bind ?_ fun _ => every_pure _
  refine confined_bind confined_some_or fun token => ?_
  refine confined_bind confined_some_or fun claims => ?_
  refine confined_bind (confined_bind (confined_select_one (hread (by decide)))
    fun _ => every_pure _) fun live => ?_
  refine confined_bind confined_require fun _ => ?_
  refine confined_bind (confined_select_one (hread (by decide))) fun found => ?_
  refine confined_bind confined_some_or fun account => ?_
  exact confined_bind confined_require fun _ => every_pure _

theorem confined_record {env : Env} {document : Document} {extraction : ExtractionResult}
    {case_id : Uuid} {digest : String} (hcase : document.case_id = case_id)
    (hdigest : document.content_hash = digest) :
    Confined (InsertsOwn case_id digest) (record_document env document extraction) := by
  refine confined_bind (confined_insert ⟨hcase, hdigest⟩) fun _ => confined_bind ?_ fun _ => ?_
  · unfold queue_ocr
    by_cases hneeds : extraction.needs_ocr = true
    · rw [if_pos hneeds]
      exact confined_bind (confined_bind (confined_insert trivial) fun _ => every_pure _)
        fun _ => every_pure _
    · rw [if_neg hneeds]
      exact every_pure _
  · exact confined_insert_all fun _ _ => trivial

/-- **Upload.** It returns after a check that found no twin, and raises as `UploadRaises` says. -/
theorem upload_course {a : Arrival Token} {case_id : Uuid} {upload : Upload}
    (hroute : a.req.route = .upload_document case_id upload) :
    UploadCourse case_id (content_hash srv upload.data)
      (fun l _ => Checked case_id (content_hash srv upload.data) [] l)
      (UploadRaises case_id (content_hash srv upload.data)) [] (a.handler srv) := by
  obtain ⟨env, ⟨credentials, route⟩⟩ := a
  obtain rfl : route = .upload_document case_id upload := hroute
  have hearly : ∀ l e, Unchecked l → UploadRaises case_id (content_hash srv upload.data) l e :=
    fun l e hl => .inl hl
  have hstart : Unchecked [] := fun x hx => by cases hx
  refine (course_bind _ _).mpr (course_elsewhere confined_gate hstart (fun l account hl => ?_)
    hearly)
  -- the case, by its id
  refine (course_bind _ _).mpr (course_select_one_bind (.inl hl) ?_ (fun c r hpk hr => ?_)
    fun rows _ => hearly _ _ (hl.cons (by decide)))
  · exact hearly _ _ (hl.cons (by decide))
  have hl : Unchecked (⟨.select .case_ (fun c : Case => c.id == case_id &&
      c.owner_id == account.id), [c]⟩ :: l) := hl.cons (by decide)
  have hid : c.id = case_id := by
    simp only [Bool.and_eq_true, beq_iff_eq] at hr
    exact Eq.trans (Eq.symm hpk) hr.1
  subst hid
  show UploadCourse _ _ _ _ _ ((read_bounded (stream upload.data) default_max_upload_bytes
    upload.content_length).rethrow read_answer >>= _)
  rw [read_bounded_eq]
  refine (course_bind _ _).mpr ((course_rethrow _ _).mpr ?_)
  -- a file that is too large or empty is refused here
  split
  · exact hearly _ _ hl
  split
  · exact hearly _ _ hl
  split
  · exact hearly _ _ hl
  rw [flatten_stream]
  refine course_some_or_bind (fun _ => hearly _ _ hl) fun source _ => ?_
  refine (course_bind _ _).mpr ((course_rethrow _ _).mpr ?_)
  refine course_select_one_bind (.inl hl) ?_ (fun d _ _ _ => ?_) fun rows hmany => ?_
  · have hchecked : Checked c.id (content_hash srv upload.data) []
        (⟨.select .document (same_document c.id (content_hash srv upload.data)), []⟩ ::
          ⟨.select .case_ (fun c' : Case => c'.id == c.id && c'.owner_id == account.id), [c]⟩ ::
            l) := ⟨[], _, rfl, hl⟩
    have hrest : Confined (InsertsOwn c.id (content_hash srv upload.data))
        (put (storage_key c.id.str (content_hash srv upload.data)) upload.data >>= fun _ => do
          let extraction ← ok_or
            (extract_text_layer srv upload.data default_max_pages default_max_chars_per_page)
          let document := uploaded_document srv env c.id upload source extraction
          record_document env document extraction
          pure document) := by
      refine confined_bind (confined_put trivial) fun _ => ?_
      refine confined_bind confined_ok_or fun extraction => ?_
      exact confined_bind (confined_record rfl rfl) fun _ => every_pure _
    refine course_checked hrest hchecked (fun l document hl => ?_) fun l e hl => ?_
    · refine course_checked (confined_bind (confined_insert trivial) fun _ => every_pure _) hl
        (fun _ _ h => h) fun l e hl => .inr ⟨[], hl, .inl rfl⟩
    · exact .inr ⟨[], hl, .inl rfl⟩
  · exact .inr ⟨[d], ⟨[], _, rfl, hl⟩, .inr (.inl ⟨d, rfl, rfl⟩)⟩
  · exact .inr ⟨rows, ⟨[], _, rfl, hl⟩, .inr (.inr hmany)⟩

/-! ### The condition -/

/-- The request puts a file with this digest into this case. -/
def Uploads (srv : Server Token) (a : Arrival Token) (case_id : Uuid) (digest : String) : Prop :=
  ∃ upload, a.req.route = .upload_document case_id upload ∧ content_hash srv upload.data = digest

/-- The duplicate check is behind it. -/
def HasChecked (f : InFlight Token) : Prop := ∃ e ∈ f.seen, e.reads .document = true

def Raised (f : InFlight Token) : Prop := ∃ e, f.rest = .raise e

/-- An upload commits while no other upload of the document is between its check and
    its end. -/
def Unraced (srv : Server Token) (_ : TrafficPast Token) (s : Traffic Token)
    (move : Move (Arrival Token)) : Prop :=
  ∀ n g, move = .commit n → s.running n = some g →
    ∀ case_id digest, Uploads srv g.job case_id digest →
      ∀ m f, m ≠ n → s.running m = some f → Uploads srv f.job case_id digest → HasChecked f →
        Raised f

/-- The document is there. -/
def Holds (db : Database) (case_id : Uuid) (digest : String) : Prop :=
  ∃ d ∈ db .document, same_document case_id digest d = true

/-- The promise to the uploads that have come to their end in this move: where the document
    is there, they are told which one it is. -/
def DuplicatesNamed (srv : Server Token) (s s' : Traffic Token) : Prop :=
  ∀ n f e case_id digest, s'.running n = some f → s.running n ≠ some f → f.rest = .raise e →
    Uploads srv f.job case_id digest → HasChecked f →
      ∀ d ∈ s.db .document, same_document case_id digest d = true → e = duplicate_answer d.id

/-- One row for each document, and no upload about to insert another. -/
structure Deduplicated (srv : Server Token) (s : Traffic Token) : Prop where
  single : ∀ d ∈ s.db .document, ∀ d' ∈ s.db .document, Document.case_id d = Document.case_id d' →
    Document.content_hash d = Document.content_hash d' → d = d'
  ready : ∀ n f reply case_id digest, s.running n = some f → f.rest = .ret reply →
    Uploads srv f.job case_id digest → ¬ Holds s.db case_id digest

/-! ### What an upload in flight has looked up -/

section flights
variable {past : TrafficPast Token} {f g : InFlight Token} {case_id : Uuid} {digest : String}
  {rows : List Document}

theorem Checked.has_checked (h : Checked case_id digest rows (f.seen.map Event.exchange)) :
    HasChecked f := by
  obtain ⟨later, before, htrace, _⟩ := h
  have hin : (⟨.select .document (same_document case_id digest), rows⟩ :
      Exchange (db_sig Row Patch Uuid Answer)) ∈ f.seen.map Event.exchange := by
    rw [htrace]
    exact List.mem_append_right _ List.mem_cons_self
  obtain ⟨e, he, hexchange⟩ := List.mem_map.mp hin
  rw [Event.eq_of_exchange hexchange] at he
  exact ⟨_, he, rfl⟩

theorem Unchecked.not_has_checked (h : Unchecked (f.seen.map Event.exchange)) :
    ¬ HasChecked f := by
  rintro ⟨e, he, hreads⟩
  obtain ⟨t, p, hop, ht⟩ := h _ (List.mem_map_of_mem he)
  have hop : e.op = .select t p := hop
  unfold Event.reads at hreads
  rw [hop] at hreads
  exact ht (of_decide_eq_true hreads)

/-- The course of an upload, for what is left of it. -/
theorem upload_left (hf : Genuine schema run_ext (Arrival.handler srv) past f)
    (hup : Uploads srv f.job case_id digest) :
    UploadCourse case_id digest (fun l _ => Checked case_id digest [] l)
      (UploadRaises case_id digest) (f.seen.map Event.exchange) f.rest := by
  obtain ⟨upload, hroute, rfl⟩ := hup
  exact hf.traced.course (upload_course hroute) hf.keyed

/-- Past its check and not refused, an upload has found nothing. -/
theorem found_none (hf : Genuine schema run_ext (Arrival.handler srv) past f)
    (hup : Uploads srv f.job case_id digest) (hchecked : HasChecked f) (hgoes : ¬ Raised f) :
    Checked case_id digest [] (f.seen.map Event.exchange) := by
  have hleft := upload_left hf hup
  match hrest : f.rest with
  | .raise e => exact absurd ⟨e, hrest⟩ hgoes
  | .ret reply =>
    rw [hrest] at hleft
    exact hleft
  | .call o k =>
    rw [hrest] at hleft
    rcases hleft.1.1 with hunchecked | hnone
    · exact absurd hchecked hunchecked.not_has_checked
    · exact hnone

theorem upload_of_uploads {route : Route Token} (h : route.uploads = true) :
    ∃ case_id upload, route = .upload_document case_id upload := by
  cases route <;> first | exact ⟨_, _, rfl⟩ | cases h

/-- What an upload inserts is the document it was given. -/
theorem inserts_own (hf : Genuine schema run_ext (Arrival.handler srv) past f)
    (hup : Uploads srv f.job case_id digest) {w : Write Row Patch Uuid} (hw : w ∈ f.log) :
    InsertsOwn case_id digest (.write w) := by
  obtain ⟨upload, hroute, rfl⟩ := hup
  obtain ⟨later, earlier, htrace⟩ := List.append_of_mem (mem_wrote hw)
  exact (hf.traced.admitted (upload_course hroute).outline hf.keyed htrace).2

/-- A check that has just been made has seen the rows that are there. -/
theorem checked_now {db : Database} {o : Op Row Patch Uuid Ext} {r : Op.Res Answer o}
    {seen : List (Event Row Patch Uuid Answer)}
    (hf : Genuine schema run_ext (Arrival.handler srv) past f) (hseen : f.seen = ⟨db, o, r⟩ :: seen)
    (hbefore : ¬ ∃ e ∈ seen, e.reads .document = true)
    (hchecked : Checked case_id digest rows (f.seen.map Event.exchange)) :
    rows = (db .document).filter (same_document case_id digest) := by
  obtain ⟨later, before, htrace, hother⟩ := hchecked
  obtain ⟨e, he, hop, _, hrows⟩ := hf.first_select htrace fun x hx => hother x hx
  rw [hseen] at he
  rcases List.mem_cons.mp he with rfl | hold
  · exact hrows
  · refine absurd ⟨e, hold, ?_⟩ hbefore
    unfold Event.reads
    rw [hop]
    rfl

/-- A transaction that commits puts no document into a case that it is not asked to. -/
theorem not_held_after {s : Traffic Token} {db' : Database}
    (hg : Genuine schema run_ext (Arrival.handler srv) past g)
    (hother : ¬ Uploads srv g.job case_id digest) (hnone : ¬ Holds s.db case_id digest)
    (hredo : redo schema g.log s.db = some db') : ¬ Holds db' case_id digest := by
  refine redo_invariant (J := fun db => ¬ Holds db case_id digest) hredo hnone ?_
  rintro w hw db _ hdb ⟨d, hd, hsame⟩
  rcases Schema.mem_effect_resolve (rigid (by decide)) hd with hold | rfl | ⟨id, p, _, _, rfl, _⟩
  · exact hdb ⟨d, hold, hsame⟩
  · -- only an upload inserts documents, and its own at that
    have huploads : g.job.req.route.uploads = true := (log_permitted hg hw).2.1
    obtain ⟨case_id', upload, hroute⟩ := upload_of_uploads huploads
    obtain ⟨hcase, hdigest⟩ := inserts_own hg ⟨upload, hroute, rfl⟩ hw
    unfold same_document at hsame
    rw [Bool.and_eq_true, beq_iff_eq, beq_iff_eq, hcase, hdigest] at hsame
    obtain ⟨rfl, rfl⟩ := hsame
    exact hother ⟨upload, hroute, rfl⟩
  · exact (log_permitted hg hw).elim

end flights

/-! ### Runs -/

section runs
variable {ext : Outside} {past : TrafficPast Token} {s s' : Traffic Token}
  {case_id : Uuid} {digest : String}

/-- Past its check and not refused, an upload is still the first. -/
def NoneYet (srv : Server Token) (_ : TrafficPast Token) (s : Traffic Token) : Prop :=
  ∀ n f case_id digest, s.running n = some f → Uploads srv f.job case_id digest →
    HasChecked f → ¬ Raised f → ¬ Holds s.db case_id digest

theorem not_holds_of_filter {db : Database}
    (h : [] = (db .document).filter (same_document case_id digest)) :
    ¬ Holds db case_id digest := by
  rintro ⟨d, hd, hsame⟩
  have hin := List.mem_filter.mpr ⟨hd, hsame⟩
  rw [← h] at hin
  cases hin

/-- **Step.** An upload past its check stays the first while none is overtaken. -/
theorem none_yet_step {may : TrafficPast Token → Traffic Token → Move (Arrival Token) → Prop}
    (hr : Run (traffic srv) may (Traffic.start ext) past s) (hnone : NoneYet srv past s)
    {move : Move (Arrival Token)} (hmay : may past s move) (hunraced : Unraced srv past s move)
    (hmove : traffic srv s move s') : NoneYet srv ((move, s) :: past) s' := by
  intro n f case_id digest hflies hup hchecked hgoes
  rcases hmove.commits past with ⟨hdb, _⟩ | ⟨k, g, reply, rfl, hg, hret, hredo, _⟩
  · rw [hdb]
    rcases hmove.running hflies with hold | ⟨job, _, rfl⟩ |
      ⟨f₀, o, c, r, ext', hf₀, hcalls, hanswered, rfl⟩
    · exact hnone n f case_id digest hold hup hchecked hgoes
    · obtain ⟨e, he, _⟩ := hchecked
      cases he
    · by_cases hbefore : HasChecked f₀
      · refine hnone n f₀ case_id digest hf₀ hup hbefore ?_
        rintro ⟨e, hraised⟩
        rw [hraised] at hcalls
        cases hcalls
      · -- the check is this call
        have hf := (run_genuine (hr.next move hmay hmove) fun _ => rfl).1 n _ hflies
        exact not_holds_of_filter
          (checked_now hf rfl hbefore (found_none hf hup hchecked hgoes))
  · obtain ⟨hne, hold⟩ := hmove.after_commit hflies
    by_cases htwin : Uploads srv g.job case_id digest
    · exact absurd (hunraced k g rfl hg case_id digest htwin n f hne hold hup hchecked) hgoes
    · exact not_held_after ((run_genuine hr fun _ => rfl).1 k g hg) htwin
        (hnone n f case_id digest hold hup hchecked hgoes) hredo

theorem none_yet (hr : Run (traffic srv) (Unraced srv) (Traffic.start ext) past s) :
    NoneYet srv past s := by
  refine hr.invariant (I := NoneYet srv) ?_ fun past s move s' hrun hnone hunraced hmove =>
    none_yet_step hrun hnone hunraced hunraced hmove
  intro n f case_id digest hflies
  cases hflies

/-- The unique index. -/
theorem document_clash {d d' : Document} (hcase : d.case_id = d'.case_id)
    (hdigest : d.content_hash = d'.content_hash) : schema.clash .document d d' = true := by
  show (d.case_id == d'.case_id && d.content_hash == d'.content_hash) = true
  rw [hcase, hdigest]
  simp

theorem one_document {db : Database} (hc : schema.Consistent db) (case_id : Uuid)
    (digest : String) : ((db .document).filter (same_document case_id digest)).length ≤ 1 := by
  refine hc.select_indexed (fun (a b : Row .document) ha hb => ?_)
  unfold same_document at ha hb
  rw [Bool.and_eq_true, beq_iff_eq, beq_iff_eq] at ha hb
  exact document_clash (ha.1.trans hb.1.symm) (ha.2.trans hb.2.symm)

/-- **Uploads of one document.** In every run whose commits are all `Unraced`, however its
    requests interleave: there is one row for each document, and every upload that comes to
    its end after its check is told which document is there, if one is. -/
theorem duplicates_named (hr : Run (traffic srv) (Unraced srv) (Traffic.start ext) past s) :
    Deduplicated srv s ∧
      ∀ move s', Unraced srv past s move → traffic srv s move s' → DuplicatesNamed srv s s' := by
  have hgenuine := (run_genuine hr fun _ => rfl).1
  refine ⟨⟨?_, ?_⟩, ?_⟩
  · intro d hd d' hd' hcase hdigest
    exact (traffic_consistent hr).eq_of_clash schema_regular hd hd' (document_clash hcase hdigest)
  · intro n f reply case_id digest hflies hret hup
    have hdone : Checked case_id digest [] (f.seen.map Event.exchange) := by
      have hleft := upload_left (hgenuine n f hflies) hup
      rw [hret] at hleft
      exact hleft
    refine none_yet hr n f case_id digest hflies hup hdone.has_checked ?_
    rintro ⟨e, hraised⟩
    rw [hraised] at hret
    cases hret
  · intro move s' hunraced hmove n f e case_id digest hflies hnew hraise hup hchecked d hd hsame
    have hf := (run_genuine (hr.next move hunraced hmove) fun _ => rfl).1 n f hflies
    -- it has made the call that ends it
    obtain ⟨f₀, o, c, r, ext', hf₀, hcalls, _, rfl⟩ : ∃ f₀ o c r ext', s.running n = some f₀ ∧
        f₀.rest = .call o c ∧ Answers schema run_ext s.db s.ext f₀.seen o r ext' ∧
          f = f₀.after s.db o c r := by
      rcases hmove.running hflies with hold | ⟨job, _, rfl⟩ | hcall
      · exact absurd hold hnew
      · obtain ⟨e', he', _⟩ := hchecked
        cases he'
      · exact hcall
    by_cases hbefore : HasChecked f₀
    · -- it had found nothing, and nothing has come since
      refine absurd ⟨d, hd, hsame⟩ (none_yet hr n f₀ case_id digest hf₀ hup hbefore ?_)
      rintro ⟨e', hraised⟩
      rw [hraised] at hcalls
      cases hcalls
    · have hleft := upload_left hf hup
      rw [hraise] at hleft
      rcases hleft with hunchecked | ⟨rows, hrows, hoc⟩
      · exact absurd hchecked hunchecked.not_has_checked
      have hfound := checked_now hf rfl hbefore hrows
      have hin : d ∈ rows := by
        rw [hfound]
        exact List.mem_filter.mpr ⟨hd, hsame⟩
      rcases hoc with rfl | ⟨d', rfl, rfl⟩ | hmany
      · cases hin
      · rw [List.mem_singleton.mp hin]
      · -- two rows would be one document twice
        have hone := one_document (traffic_consistent hr) case_id digest
        rw [← hfound] at hone
        omega

/-- One after another, uploads do not race. -/
theorem unraced_one_by_one {as : List (Arrival Token)} {w : Committed}
    (h : one_by_one srv ext as = some w) :
    ∃ past, Run (traffic srv) (Unraced srv) (Traffic.start ext) past
      ⟨w.db, w.ext, fun _ => none⟩ := by
  refine run_one_by_one ?_ ?_ ?_ h
  · intro _ _ _ _ _ _ hmove
    cases hmove
  · intro _ _ _ _ _ hmove
    cases hmove
  · intro past s f reply _ _ hidle _ _ n g hmove _ case_id digest _ m f' hne hflies
    obtain rfl := Move.commit.inj hmove
    rw [hidle m hne] at hflies
    cases hflies

end runs

/-! ### An upload that is overtaken, and one that is not -/

namespace Sample

def page : Upload := ⟨pdf_magic ++ bytes_of "hello", none, none, "upload", none⟩

/-- An account with a case. -/
def filing : List Line :=
  [⟨3, 102 * second, ⟨owner_token, .create_case "In re A" none none⟩⟩,
    ⟨2, 101 * second, ⟨none, .login "a@x.org" "correct horse"⟩⟩,
    ⟨1, 100 * second, ⟨none, .register "a@x.org" "correct horse" none⟩⟩]

def upload_at (serial : Nat) : Line :=
  ⟨serial, 103 * second, ⟨owner_token, .upload_document 12288#128 page⟩⟩

/-- An upload has found no duplicate when another upload of the same file comes and goes.
    Then it stores the bytes. -/
def raced : List (Turn (Arrival Payload)) :=
  .move (.call 1) :: whole (upload_at 5) ++
    [.move (.call 1), .move (.call 1), .move (.call 1), .move (.call 1),
      .move (.begin 1 (upload_at 4).arrival)] ++ filing.flatMap whole

/-- The upload in slot 1 is told which document it is. -/
def told_of_duplicate (s : Traffic Payload) : Bool :=
  match s.running 1 with
  | some ⟨_, .raise e, _⟩ =>
      (s.db .document).any (fun d : Document => decide (e = duplicate_answer d.id))
  | _ => false

theorem told_of_told {s : Traffic Payload} (h : told_of_duplicate s = true) :
    ∃ f, s.running 1 = some f ∧ ∃ d ∈ s.db .document,
      f.rest = .raise (duplicate_answer (Document.id d)) := by
  unfold told_of_duplicate at h
  split at h
  · next e seen hf =>
    obtain ⟨d, hd, hsame⟩ := List.any_eq_true.mp h
    obtain rfl := of_decide_eq_true hsame
    exact ⟨_, hf, d, hd, rfl⟩
  · cases h

/-- The upload in slot 1 fails in the database, where its document is. -/
def fails_on_duplicate (s s' : Traffic Payload) : Bool :=
  match s.running 1, s'.running 1 with
  | some ⟨_, .call _ _, _⟩,
      some ⟨⟨_, ⟨_, .upload_document case_id upload⟩⟩, .raise (.database _), seen⟩ =>
      seen.any (fun e => e.reads .document) && (s.db .document).any
        (same_document case_id (content_hash secret_server upload.data))
  | _, _ => false

theorem not_named_of_fails {s s' : Traffic Payload} (h : fails_on_duplicate s s' = true) :
    ¬ DuplicatesNamed secret_server s s' := by
  unfold fails_on_duplicate at h
  split at h
  · next _ _ _ _ _ _ case_id upload v seen hbefore hafter =>
    obtain ⟨hchecked, hheld⟩ := Bool.and_eq_true_iff.mp h
    obtain ⟨d, hd, hsame⟩ := List.any_eq_true.mp hheld
    intro hnamed
    have hnew : s.running 1 ≠ s'.running 1 := by
      rw [hbefore, hafter]
      simp
    rw [hafter] at hnew
    have hanswer := hnamed 1 _ _ _ _ hafter hnew rfl ⟨upload, rfl, rfl⟩
      (List.any_eq_true.mp hchecked) d hd hsame
    cases hanswer
  · cases h

end Sample

/-- The upload that comes second to the unique index is not told of a duplicate. -/
theorem raced_upload_unnamed :
    ¬ ∀ past s, Run (traffic Sample.secret_server) unrestricted
        (Traffic.start Sample.nothing_stored) past s →
      Deduplicated Sample.secret_server s ∧
        ∀ move s', traffic Sample.secret_server s move s' →
          DuplicatesNamed Sample.secret_server s s' := by
  intro hall
  have hscript : (Sample.play_script Sample.raced).any (fun s =>
      (take_turn schema run_ext (Arrival.handler Sample.secret_server) (.move (.call 1)) s).any
        (Sample.fails_on_duplicate s)) = true := by
    decide +kernel
  obtain ⟨s, hs, hafter⟩ := (Option.any_eq_true _ _).mp hscript
  obtain ⟨s', hs', hfails⟩ := (Option.any_eq_true _ _).mp hafter
  obtain ⟨past, hr⟩ := run_turns hs
  have hmove : traffic Sample.secret_server s (.call 1) s' := advance_moves (m := .call 1) hs'
  exact Sample.not_named_of_fails hfails ((hall past s hr).2 _ s' hmove)

/-- An upload whose document is there when another one of the same file comes: that one,
    still in flight, is told which document it is. -/
theorem later_upload_named :
    ∃ past s, Run (traffic Sample.secret_server) (Unraced Sample.secret_server)
        (Traffic.start Sample.nothing_stored) past s ∧
      (s.db .document).length = 1 ∧
      (∃ f, s.running 1 = some f ∧ ∃ d ∈ s.db .document,
        f.rest = .raise (duplicate_answer (Document.id d))) ∧
      Deduplicated Sample.secret_server s ∧
        ∀ move s', Unraced Sample.secret_server past s move →
          traffic Sample.secret_server s move s' →
            DuplicatesNamed Sample.secret_server s s' := by
  have hscript : (Sample.joined_by Sample.secret_server (Sample.upload_at 4 :: Sample.filing)
      (Sample.upload_at 5) 4).any (fun s => decide ((s.db .document).length = 1) &&
        Sample.told_of_duplicate s) = true := by
    decide +kernel
  obtain ⟨s, hs, hboth⟩ := (Option.any_eq_true _ _).mp hscript
  obtain ⟨hone, htold⟩ := Bool.and_eq_true_iff.mp hboth
  obtain ⟨past, hr⟩ := Sample.run_joined_by (Unraced Sample.secret_server)
    (fun w hw => unraced_one_by_one hw) (fun _ _ _ _ _ _ hmove => by cases hmove)
    (fun _ _ _ _ _ hmove => by cases hmove) hs
  exact ⟨past, s, hr, of_decide_eq_true hone, Sample.told_of_told htold, duplicates_named hr⟩

end CounselReady
