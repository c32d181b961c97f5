import CounselReady.Guarantees.PagesRead
import CounselReady.Guarantees.Timeline

/-! # A Document and Its OCR Job

    The document, its job and its pages are three flushes of one transaction:
    whichever of them fails, or the commit, none of it is there. As long as no
    account is deleted the documents stay, and so a job never outlives the
    document it names.
-/

namespace CounselReady

open Relational Framework

variable {Token : Type} {srv : Server Token} {turn : Turn Token}
  {past : List (Turn Token × Committed)} {w w' : Committed} {db db' : Database}

/-! ### One job for each document to be read -/

/-- The queued work on a document. -/
def jobs_naming (db : Database) (document_id : Uuid) : List Job :=
  (db .job).filter (fun j : Job => j.kind == .ocr_document && j.payload == document_id.str)

/-- The document was stored by a turn of the run, with these pages. -/
inductive Ingested (srv : Server Token) : List (Turn Token × Committed) → Committed → Uuid →
    ExtractionResult → Prop where
  | now {past : List (Turn Token × Committed)} {w w' : Committed} {turn : Turn Token} (env : Env)
      (data : Bytes) (extraction : ExtractionResult) (stores : turn.stores env data)
      (read : extract_text_layer srv data default_max_pages default_max_chars_per_page =
        .ok extraction)
      (new : ∀ d ∈ w.db .document, Document.id d ≠ env.uuid 0)
      (committed : ∃ d ∈ w'.db .document, Document.id d = env.uuid 0) :
      Ingested srv ((turn, w) :: past) w' (env.uuid 0) extraction
  | before {past : List (Turn Token × Committed)} {w w' : Committed} {turn : Turn Token}
      {id : Uuid} {extraction : ExtractionResult} (earlier : Ingested srv past w id extraction) :
      Ingested srv ((turn, w) :: past) w' id extraction

/-- The turn takes no account away. -/
def keeps_accounts (srv : Server Token) (_ : List (Turn Token × Committed)) (w : Committed)
    (turn : Turn Token) : Prop :=
  ∀ a ∈ w.db .user_account, ∃ a' ∈ (turn.run srv w).db .user_account,
    UserAccount.id a' = UserAccount.id a

/-- The jobs are those of the documents: one for a document with a blank page, none
    for any other, and none for what is no document. -/
structure JobsMatch (srv : Server Token) (past : List (Turn Token × Committed)) (w : Committed) :
    Prop where
  ingested : ∀ d ∈ w.db .document, ∃ extraction, Ingested srv past w (Document.id d) extraction
  present : ∀ id extraction, Ingested srv past w id extraction →
    ∃ d ∈ w.db .document, Document.id d = id
  one : ∀ id extraction, Ingested srv past w id extraction → extraction.needs_ocr = true →
    ∃ j, jobs_naming w.db id = [j]
  none : ∀ id extraction, Ingested srv past w id extraction → extraction.needs_ocr = false →
    jobs_naming w.db id = []
  named : ∀ j ∈ w.db .job, ∃ d ∈ w.db .document, Job.payload j = (Document.id d).str

/-! ### Documents stay with their account -/

/-- A document with its case, unless their owner is gone. -/
def anchored_or_gone (route : Route Token) (c : Case) (d : Document) (db : Database) : Prop :=
  (d ∈ db .document ∧ c ∈ db .case_) ∨
    (route.deletes_account = true ∧ ∀ a ∈ db .user_account, UserAccount.id a ≠ c.owner_id)

theorem not_doomed_of_owner (hc : schema.Consistent db) {c : Case} {d : Document}
    (hd : d ∈ db .document) (hcase : c ∈ db .case_) (hid : c.id = d.case_id) {i : Uuid}
    (hne : i ≠ c.owner_id) :
    (Table.document, d.id) ∉ schema.doomed db .user_account i ∧
      (Table.case_, c.id) ∉ schema.doomed db .user_account i := by
  have hstay : (Table.case_, c.id) ∉ schema.doomed db .user_account i := by
    intro hgone
    obtain ⟨r, hr, hpk, k, hk, _, j, hj, howner⟩ :=
      Schema.doomed_parent hgone (fun heq => by cases (Prod.mk.inj heq).1)
    obtain rfl : r = c := hc.eq_of_pk hr hcase hpk
    obtain rfl := List.mem_singleton.mp hk
    obtain rfl := Option.some.inj hj
    exact hne (Prod.mk.inj (account_doomed howner)).2.symm
  refine ⟨?_, hstay⟩
  intro hgone
  obtain ⟨r, hr, hpk, k, hk, _, j, hj, hparent⟩ :=
    Schema.doomed_parent hgone (fun heq => by cases (Prod.mk.inj heq).1)
  obtain rfl : r = d := hc.eq_of_pk hr hd hpk
  obtain rfl := List.mem_singleton.mp hk
  obtain rfl := Option.some.inj hj
  have hparent : (Table.case_, r.case_id) ∈ schema.doomed db .user_account i := hparent
  rw [← hid] at hparent
  exact hstay hparent

/-- **Statement.** A statement keeps the document under its case, or the account goes with both. -/
theorem anchored_statement {env : Env} {req : Request Token} {c : Case} {d : Document}
    {wr : Write Row Patch Uuid} (hc : schema.Consistent db) (hid : c.id = d.case_id)
    (hroute : req.route.uploads = false) (hp : (Step.request env req).permits srv (.write wr))
    (h : anchored_or_gone req.route c d db) :
    anchored_or_gone req.route c d (schema.effect (schema.resolve db wr) db) := by
  rcases h with ⟨hd, hcase⟩ | ⟨hdeletes, hnone⟩
  swap
  · exact .inr ⟨hdeletes, no_account_added hdeletes hp hnone⟩
  cases wr with
  | insert t row =>
    refine .inl ⟨?_, ?_⟩
    · by_cases ht : t = .document
      · subst ht
        exact Schema.mem_effect_insert.mpr (.inl hd)
      · rw [Schema.resolve, Schema.effect_insert_ne _ _ ht]
        exact hd
    · by_cases ht : t = .case_
      · subst ht
        exact Schema.mem_effect_insert.mpr (.inl hcase)
      · rw [Schema.resolve, Schema.effect_insert_ne _ _ ht]
        exact hcase
  | update t i p =>
    have hdoc : t ≠ .document := (spares_of_permits hroute hp).1
    have hcs : t ≠ .case_ := by
      rintro rfl
      exact p.elim
    refine .inl ⟨?_, ?_⟩
    · rw [Schema.resolve, Schema.effect_update_ne _ _ _ hdoc]
      exact hd
    · rw [Schema.resolve, Schema.effect_update_ne _ _ _ hcs]
      exact hcase
  | delete t i =>
    -- a cascade that meets neither row leaves both
    have hboth : (Table.document, d.id) ∉ schema.doomed db t i →
        (Table.case_, c.id) ∉ schema.doomed db t i →
        anchored_or_gone req.route c d (schema.effect (schema.resolve db (.delete t i)) db) := by
      intro hdoc hcs
      refine .inl ⟨?_, ?_⟩
      · exact Schema.mem_effect_remove.mpr ⟨d, hd, hdoc, rigid (by decide) _ _⟩
      · exact Schema.mem_effect_remove.mpr ⟨c, hcase, hcs, rigid (by decide) _ _⟩
    rcases leaf_of_permitted hp with rfl | hleaf
    · by_cases howner : i = c.owner_id
      · -- the owner goes, and their cases and documents with them
        subst howner
        exact .inr ⟨hp, owner_gone db c.owner_id⟩
      · obtain ⟨hdoc, hcs⟩ := not_doomed_of_owner hc hd hcase hid howner
        exact hboth hdoc hcs
    · have hdoc : t ≠ .document := by
        rintro rfl
        exact hp
      have hcs : t ≠ .case_ := by
        rintro rfl
        exact hp
      have hstay : ∀ {t' i'}, t' ≠ t → (t', i') ∉ schema.doomed db t i := by
        intro t' i' hne hgone
        have heq := Schema.doomed_leaf schema_stratified schema_regular.ordered hleaf hgone
        exact hne (Prod.mk.inj heq).1
      exact hboth (hstay hdoc.symm) (hstay hcs.symm)

/-- **Step.** A document stays while the accounts do. -/
theorem documents_stay (hc : schema.Consistent w.db) (hkeep : keeps_accounts srv past w turn) :
    ∀ d ∈ w.db .document, ∃ d' ∈ (turn.run srv w).db .document,
      Document.id d' = Document.id d := by
  intro d hd
  have hsame : ∀ (document_id : Uuid) (status : OcrStatus),
      ∃ d' ∈ set_status document_id status (w.db .document), Document.id d' = Document.id d := by
    intro document_id status
    refine ⟨_, List.mem_map_of_mem hd, ?_⟩
    split <;> rfl
  cases turn.document_change srv hc with
  | unchanged same => exact ⟨d, by rw [same]; exact hd, rfl⟩
  | stored env data d₁ extraction stores read id count status documents pages jobs =>
    refine ⟨d, ?_, rfl⟩
    rw [documents]
    exact List.mem_append_left _ hd
  | marked document_id documents pages jobs =>
    rw [documents]
    exact hsame _ _
  | read document_id engine data pages reads result filled =>
    rw [filled.documents]
    exact hsame _ _
  | kept env req asked plain h =>
    subst asked
    obtain ⟨c, hcase, hid⟩ := hc.target (k := belongs .case_ Document.case_id) hd
      List.mem_cons_self rfl
    obtain ⟨a, ha, hown⟩ := hc.target (k := belongs .user_account Case.owner_id) hcase
      List.mem_cons_self rfl
    let J : Database → Prop := fun db =>
      schema.Consistent db ∧ anchored_or_gone req.route c d db
    -- statement by statement: the document stays under its case, or the owner is gone
    have hJ : J ((Step.request env req).run srv w).db := by
      refine Step.run_db_invariant ?_ ⟨hc, .inl ⟨hd, hcase⟩⟩
      rintro wr db hp hchk ⟨hcons, hdb⟩
      exact ⟨Schema.consistent_admitted schema_regular hcons hchk,
        anchored_statement hcons hid plain hp hdb⟩
    rcases hJ.2 with ⟨hd', _⟩ | ⟨_, hgone⟩
    · exact ⟨d, hd', rfl⟩
    · obtain ⟨a', ha', hsame'⟩ := hkeep a ha
      exact absurd (hsame'.trans hown) (hgone a' ha')

/-! ### Jobs and documents together -/

theorem Turn.stores_unique {env env' : Env} {data data' : Bytes} (h : turn.stores env data)
    (h' : turn.stores env' data') : env = env' ∧ data = data' := by
  cases turn with
  | ingest env₁ request =>
    obtain ⟨rfl, rfl⟩ := h
    obtain ⟨rfl, rfl⟩ := h'
    exact ⟨rfl, rfl⟩
  | ocr_caught env₁ document_id engine => cases h
  | step s =>
    cases s with
    | ocr env₁ document_id engine => cases h
    | request env₁ req =>
      obtain ⟨credentials, route⟩ := req
      cases route with
      | upload_document case_id upload =>
        obtain ⟨rfl, rfl⟩ := h
        obtain ⟨rfl, rfl⟩ := h'
        exact ⟨rfl, rfl⟩
      | _ => cases h

/-- A turn that adds no document changes no job. -/
theorem DocumentChange.adds (h : DocumentChange srv turn db db') :
    (db' .job = db .job ∧
      ∀ d ∈ db' .document, ∃ d₀ ∈ db .document, Document.id d₀ = Document.id d) ∨
    ∃ env data d extraction, turn.stores env data ∧
      extract_text_layer srv data default_max_pages default_max_chars_per_page =
        .ok extraction ∧ Document.id d = env.uuid 0 ∧
      db' .document = db .document ++ [d] ∧
      db' .job = db .job ++ if extraction.needs_ocr then [ocr_job env d.id] else [] := by
  have hset : ∀ {document_id : Uuid} {status : OcrStatus},
      ∀ d ∈ set_status document_id status (db .document), ∃ d₀ ∈ db .document,
        Document.id d₀ = Document.id d := by
    intro document_id status d hd
    obtain ⟨d₀, hd₀, hid, _⟩ := mem_set_status hd
    exact ⟨d₀, hd₀, hid⟩
  cases h with
  | unchanged same =>
    subst same
    exact .inl ⟨rfl, fun d hd => ⟨d, hd, rfl⟩⟩
  | kept env req asked plain h => exact .inl ⟨h.jobs, fun d hd => ⟨d, h.documents d hd, rfl⟩⟩
  | marked document_id documents pages jobs =>
    rw [documents]
    exact .inl ⟨jobs, hset⟩
  | read document_id engine data pages reads result filled =>
    rw [filled.documents]
    exact .inl ⟨filled.others .job (by decide) (by decide), hset⟩
  | stored env data d extraction stores read id count status documents pages jobs =>
    exact .inr ⟨env, data, d, extraction, stores, read, id, documents, jobs⟩

/-- **Step**, when no document is added. -/
theorem JobsMatch.same (hm : JobsMatch srv past w) (hjobs : w'.db .job = w.db .job)
    (hsub : ∀ d ∈ w'.db .document, ∃ d₀ ∈ w.db .document, Document.id d₀ = Document.id d)
    (hstay : ∀ d ∈ w.db .document, ∃ d' ∈ w'.db .document, Document.id d' = Document.id d) :
    JobsMatch srv ((turn, w) :: past) w' := by
  have hback : ∀ id extraction, Ingested srv ((turn, w) :: past) w' id extraction →
      Ingested srv past w id extraction := by
    intro id extraction h
    cases h with
    | before earlier => exact earlier
    | now env data _ stores read new committed =>
      obtain ⟨d, hd, hid⟩ := committed
      obtain ⟨d₀, hd₀, hid₀⟩ := hsub d hd
      exact absurd (hid₀.trans hid) (new d₀ hd₀)
  have hsame : ∀ id, jobs_naming w'.db id = jobs_naming w.db id := by
    intro id
    unfold jobs_naming
    rw [hjobs]
  constructor
  · intro d hd
    obtain ⟨d₀, hd₀, hid⟩ := hsub d hd
    obtain ⟨extraction, hing⟩ := hm.ingested d₀ hd₀
    rw [← hid]
    exact ⟨extraction, .before hing⟩
  · intro id extraction h
    obtain ⟨d, hd, rfl⟩ := hm.present id extraction (hback id extraction h)
    exact hstay d hd
  · intro id extraction h hneeds
    rw [hsame]
    exact hm.one id extraction (hback id extraction h) hneeds
  · intro id extraction h hneeds
    rw [hsame]
    exact hm.none id extraction (hback id extraction h) hneeds
  · intro j hj
    rw [hjobs] at hj
    obtain ⟨d, hd, hpay⟩ := hm.named j hj
    obtain ⟨d', hd', hid⟩ := hstay d hd
    exact ⟨d', hd', by rw [hid]; exact hpay⟩

/-- The new job names the new document only. -/
theorem jobs_naming_added {env : Env} {document_id : Uuid} {extraction : ExtractionResult}
    (hjobs : db' .job =
      db .job ++ if extraction.needs_ocr then [ocr_job env document_id] else []) (id : Uuid) :
    jobs_naming db' id = jobs_naming db id ++
      if extraction.needs_ocr = true ∧ id = document_id then [ocr_job env document_id] else [] := by
  unfold jobs_naming
  rw [hjobs, List.filter_append]
  congr 1
  have hspelt : (ocr_job env document_id).payload = id.str ↔ id = document_id :=
    ⟨fun heq => (Uuid.str_inj heq).symm, fun heq => by rw [heq]; rfl⟩
  by_cases hneeds : extraction.needs_ocr = true
  · by_cases hid : id = document_id
    · have hpay := hspelt.mpr hid
      subst hid
      simp [hneeds, hpay]
    · have hpay : (ocr_job env document_id).payload ≠ id.str := fun heq => hid (hspelt.mp heq)
      simp [hneeds, hid, hpay]
  · simp [hneeds]

/-- **Step**, when one is: its job comes with it and names no other. -/
theorem JobsMatch.added (hm : JobsMatch srv past w) (hc' : schema.Consistent w'.db) {env : Env}
    {data : Bytes} {d : Document} {extraction : ExtractionResult} (hstores : turn.stores env data)
    (hread : extract_text_layer srv data default_max_pages default_max_chars_per_page =
      .ok extraction) (hid : d.id = env.uuid 0) (hdocs : w'.db .document = w.db .document ++ [d])
    (hjobs : w'.db .job =
      w.db .job ++ if extraction.needs_ocr then [ocr_job env d.id] else []) :
    JobsMatch srv ((turn, w) :: past) w' := by
  have hdistinct := hc'.distinct .document
  rw [hdocs] at hdistinct
  have hnew : ∀ d₀ ∈ w.db .document, Document.id d₀ ≠ d.id := by
    intro d₀ hd₀
    exact (List.pairwise_append.mp hdistinct).2.2 d₀ hd₀ d (List.mem_singleton_self d)
  have hold : ∀ d₀ ∈ w.db .document, d₀ ∈ w'.db .document := by
    intro d₀ hd₀
    rw [hdocs]
    exact List.mem_append_left _ hd₀
  have hd : d ∈ w'.db .document := by
    rw [hdocs]
    exact List.mem_append_right _ (List.mem_singleton_self d)
  -- no job of before names the new document
  have hunnamed : jobs_naming w.db d.id = [] := by
    unfold jobs_naming
    rw [List.filter_eq_nil_iff]
    intro j hj hnames
    obtain ⟨d₀, hd₀, hpay⟩ := hm.named j hj
    have hspelt : j.payload = d.id.str := by
      simp only [Bool.and_eq_true, beq_iff_eq] at hnames
      exact hnames.2
    exact hnew d₀ hd₀ (Uuid.str_inj (hpay.symm.trans hspelt))
  have hsame : ∀ id, id ≠ d.id → jobs_naming w'.db id = jobs_naming w.db id := by
    intro id hne
    rw [jobs_naming_added hjobs, if_neg (fun hboth => hne hboth.2), List.append_nil]
  have hown : jobs_naming w'.db d.id =
      if extraction.needs_ocr then [ocr_job env d.id] else [] := by
    rw [jobs_naming_added hjobs, hunnamed, List.nil_append]
    simp
  -- what was ingested before is another document, what is ingested now is this one
  have hcases : ∀ id extraction', Ingested srv ((turn, w) :: past) w' id extraction' →
      (Ingested srv past w id extraction' ∧ id ≠ d.id) ∨
        (id = d.id ∧ extraction' = extraction) := by
    intro id extraction' h
    cases h with
    | before earlier =>
      obtain ⟨d₀, hd₀, hid₀⟩ := hm.present id extraction' earlier
      rw [← hid₀]
      rw [← hid₀] at earlier
      exact .inl ⟨earlier, hnew d₀ hd₀⟩
    | now env' data' _ stores read new committed =>
      obtain ⟨rfl, rfl⟩ := Turn.stores_unique hstores stores
      rw [hread] at read
      exact .inr ⟨hid.symm, (Except.ok.inj read).symm⟩
  constructor
  · intro d₁ hd₁
    rw [hdocs] at hd₁
    rcases List.mem_append.mp hd₁ with hin | hin
    · obtain ⟨extraction', hing⟩ := hm.ingested d₁ hin
      exact ⟨extraction', .before hing⟩
    · obtain rfl := List.mem_singleton.mp hin
      have hfresh : ∀ d₀ ∈ w.db .document, Document.id d₀ ≠ env.uuid 0 := by
        intro d₀ hd₀
        rw [← hid]
        exact hnew d₀ hd₀
      rw [hid]
      exact ⟨extraction, .now env data extraction hstores hread hfresh ⟨d₁, hd, hid⟩⟩
  · intro id extraction' h
    rcases hcases id extraction' h with ⟨earlier, _⟩ | ⟨rfl, _⟩
    · obtain ⟨d₀, hd₀, hid₀⟩ := hm.present id extraction' earlier
      exact ⟨d₀, hold d₀ hd₀, hid₀⟩
    · exact ⟨d, hd, rfl⟩
  · intro id extraction' h hneeds
    rcases hcases id extraction' h with ⟨earlier, hne⟩ | ⟨rfl, rfl⟩
    · rw [hsame id hne]
      exact hm.one id extraction' earlier hneeds
    · rw [hown, if_pos hneeds]
      exact ⟨_, rfl⟩
  · intro id extraction' h hneeds
    rcases hcases id extraction' h with ⟨earlier, hne⟩ | ⟨rfl, rfl⟩
    · rw [hsame id hne]
      exact hm.none id extraction' earlier hneeds
    · rw [hown, hneeds]
      rfl
  · intro j hj
    rw [hjobs] at hj
    rcases List.mem_append.mp hj with hin | hin
    · obtain ⟨d₀, hd₀, hpay⟩ := hm.named j hin
      exact ⟨d₀, hold d₀ hd₀, hpay⟩
    · by_cases hneeds : extraction.needs_ocr = true <;> simp [hneeds] at hin
      subst hin
      exact ⟨d, hd, rfl⟩

/-- **Document and job commit together.** In every state reached before an account is
    deleted, a document ingested with a blank page has exactly one OCR job, any
    other has none, and every job names a document that is there. -/
theorem job_commits_with_document (hr : Run (turns srv) (keeps_accounts srv) .empty past w) :
    JobsMatch srv past w := by
  refine hr.invariant (I := JobsMatch srv) ?_ ?_
  · have hnot : ∀ id extraction, ¬ Ingested srv [] Committed.empty id extraction := by
      intro id extraction h
      cases h
    constructor
    · intro d hd
      cases hd
    · intro id extraction h
      exact absurd h (hnot id extraction)
    · intro id extraction h
      exact absurd h (hnot id extraction)
    · intro id extraction h
      exact absurd h (hnot id extraction)
    · intro j hj
      cases hj
  · rintro past w turn w' hprev hm hkeep rfl
    have hc := turns_consistent hprev
    rcases (turn.document_change srv hc).adds with ⟨hjobs, hsub⟩ |
      ⟨env, data, d, extraction, hstores, hread, hid, hdocs, hjobs⟩
    · exact hm.same hjobs hsub (documents_stay hc hkeep)
    · exact hm.added (turn.consistent srv hc) hstores hread hid hdocs hjobs

/-- The scan has its job, and the job is the scan's. -/
theorem scan_has_job :
    (played Sample.server scan_uploaded).2.db .job ≠ [] ∧
      JobsMatch Sample.server (played Sample.server scan_uploaded).1
        (played Sample.server scan_uploaded).2 := by
  refine ⟨by decide +kernel, job_commits_with_document ?_⟩
  refine .next _ (.next _ (.next _ (.next _ .start ?_ rfl) ?_ rfl) ?_ rfl) ?_ rfl
  all_goals
    unfold keeps_accounts
    decide +kernel

end CounselReady
