import CounselReady.Rules

/-! # What an Upload Does

    An upload is refused before it reaches the store, or it stores its bytes and
    then either records them or fails. `Spoiled` lists what can go wrong in
    between.
-/

namespace CounselReady

open Relational Framework Handler Prog

variable {Token : Type} {srv : Server Token} {env : Env} {s : Session}

/-! ### Reading the file -/

theorem flatten_stream_turns {turns : Nat} {data : Bytes} (h : data.length ≤ turns) :
    (stream_turns turns data).flatten = data := by
  induction turns generalizing data with
  | zero =>
    have hnil : data = [] := List.eq_nil_of_length_eq_zero (Nat.le_zero.mp h)
    rw [hnil]
    rfl
  | succ turns ih =>
    unfold stream_turns
    by_cases hempty : data.isEmpty = true
    · rw [if_pos hempty, List.isEmpty_iff.mp hempty]
      rfl
    · rw [if_neg hempty, List.flatten_cons, ih, List.take_append_drop]
      rw [List.length_drop]
      have hchunk : upload_chunk = 64 * 1024 := rfl
      omega

theorem flatten_stream (data : Bytes) : (stream data).flatten = data :=
  flatten_stream_turns (Nat.le_refl _)

/-- What reading comes to, whatever the chunks. -/
theorem read_chunks_eq {max_bytes : Nat} (chunks : List Bytes) {buffer : Bytes}
    (hb : buffer.length ≤ max_bytes) :
    read_chunks max_bytes buffer chunks =
      if max_bytes < (buffer ++ chunks.flatten).length then .raise .upload_too_large
      else if (buffer ++ chunks.flatten).isEmpty then .raise .empty_upload
      else pure (buffer ++ chunks.flatten) := by
  induction chunks generalizing buffer with
  | nil =>
    rw [List.flatten_nil, List.append_nil, if_neg (Nat.not_lt.mpr hb)]
    rfl
  | cons chunk chunks ih =>
    rw [List.flatten_cons, ← List.append_assoc]
    show (if max_bytes < (buffer ++ chunk).length then .raise .upload_too_large
      else read_chunks max_bytes (buffer ++ chunk) chunks) = _
    by_cases hover : max_bytes < (buffer ++ chunk).length
    · -- what is over the cap already stays over it
      have htotal : max_bytes < ((buffer ++ chunk) ++ chunks.flatten).length := by
        rw [List.length_append]
        omega
      rw [if_pos hover, if_pos htotal]
    · rw [if_neg hover]
      exact ih (Nat.not_lt.mp hover)

theorem read_bounded_eq {max_bytes : Nat} (chunks : List Bytes) (declared : Option Nat) :
    read_bounded chunks max_bytes declared =
      if declared.any (fun n => decide (max_bytes < n)) then .raise .upload_too_large
      else if max_bytes < chunks.flatten.length then .raise .upload_too_large
      else if chunks.flatten.isEmpty then .raise .empty_upload
      else pure chunks.flatten := by
  unfold read_bounded
  rw [read_chunks_eq chunks (Nat.zero_le _), List.nil_append]

theorem wps_read_chunks {max_bytes : Nat} {buffer : Bytes} {chunks : List Bytes}
    {Q : Except Exc Bytes → Session → Prop} (hb : buffer.length ≤ max_bytes)
    (herr : ∀ e, Q (.error e) s)
    (hok : ∀ data, data = buffer ++ chunks.flatten → data ≠ [] → data.length ≤ max_bytes →
      Q (.ok data) s) :
    wps (read_chunks max_bytes buffer chunks) Q s := by
  induction chunks generalizing buffer with
  | nil =>
    refine (wp_ite _ _).mpr ⟨fun _ => (wp_raise _).mpr (herr _), fun hne => (wp_pure _).mpr ?_⟩
    exact hok buffer (by simp) (by simpa using hne) hb
  | cons chunk chunks ih =>
    refine (wp_ite _ _).mpr ⟨fun _ => (wp_raise _).mpr (herr _), fun hle => ?_⟩
    refine ih (Nat.not_lt.mp hle) fun data hdata => ?_
    exact hok data (by rw [hdata, List.flatten_cons, List.append_assoc])

/-- What the bounded reader lets through. -/
structure WithinLimit (max_bytes : Nat) (upload : Upload) : Prop where
  declared : ∀ n, upload.content_length = some n → n ≤ max_bytes
  nonempty : upload.data ≠ []
  length : upload.data.length ≤ max_bytes

/-- The bounded reader gives back the file, or refuses it. -/
theorem wps_read_bounded {max_bytes : Nat} {upload : Upload}
    {Q : Except Exc Bytes → Session → Prop} (herr : ∀ e, Q (.error e) s)
    (hok : WithinLimit max_bytes upload → Q (.ok upload.data) s) :
    wps (read_bounded (stream upload.data) max_bytes upload.content_length) Q s := by
  refine (wp_ite _ _).mpr ⟨fun _ => (wp_raise _).mpr (herr _), fun hdeclared => ?_⟩
  refine wps_read_chunks (Nat.zero_le _) herr fun data hdata hne hle => ?_
  rw [List.nil_append, flatten_stream] at hdata
  subst hdata
  refine hok ⟨fun n hn => ?_, hne, hle⟩
  rw [hn] at hdeclared
  simpa using hdeclared

/-! ### The rows of an upload -/

def upload_request (case_id : Uuid) (upload : Upload) (source : IngestSource) :
    IngestRequest where
  case_id := case_id
  title := or_else upload.title (or_else upload.filename "Untitled document")
  ingest_source := source
  data := upload.data
  kind := .unclassified

/-- Where the bytes of an upload are stored. -/
def upload_key (srv : Server Token) (case_id : Uuid) (upload : Upload) : String :=
  storage_key case_id.str (content_hash srv upload.data)

def uploaded_document (srv : Server Token) (env : Env) (case_id : Uuid) (upload : Upload)
    (source : IngestSource) (extraction : ExtractionResult) : Document :=
  new_document env (upload_request case_id upload source) (upload_key srv case_id upload)
    (content_hash srv upload.data) extraction

def ocr_job (env : Env) (document_id : Uuid) : Job where
  id := env.uuid 1
  kind := .ocr_document
  status := .queued
  payload := document_id.str
  attempts := 0
  run_after := env.now
  last_error := none

def with_job (env : Env) (document_id : Uuid) (extraction : ExtractionResult) (db : Database) :
    Database :=
  if extraction.needs_ocr then schema.effect (.insert .job (ocr_job env document_id)) db else db

def upload_audit (env : Env) (account : UserAccount) (case_id : Uuid) (pages : Nat) :
    CaseAuditEvent where
  id := env.uuid 2
  actor_user_id := some account.id
  case_id := some case_id
  action := .document_uploaded
  detail := some [("pages", pages)]

theorem with_job_ne {document_id : Uuid} {extraction : ExtractionResult} {db : Database}
    {t : Table} (h : .job ≠ t) : with_job env document_id extraction db t = db t := by
  unfold with_job
  split
  · exact Schema.effect_insert_ne _ _ h
  · rfl

/-- The rows once the document, its job and its first pages are in. -/
def with_pages (env : Env) (document : Document) (extraction : ExtractionResult)
    (pages : List DocumentPage) (db : Database) : Database :=
  inserted_all .document_page pages
    (with_job env document.id extraction (schema.effect (.insert .document document) db))

/-- The rows once all of the upload is in. -/
def with_upload (env : Env) (account : UserAccount) (document : Document)
    (extraction : ExtractionResult) (db : Database) : Database :=
  schema.effect (.insert .case_audit_event
      (upload_audit env account document.case_id document.page_count.toNat))
    (with_pages env document extraction (page_rows env document.id extraction.pages) db)

/-- Of the documents, an upload adds its own and touches no other. -/
theorem with_upload_document (account : UserAccount) (document : Document)
    (extraction : ExtractionResult) (db : Database) :
    with_upload env account document extraction db .document = db .document ++ [document] := by
  unfold with_upload with_pages
  rw [Schema.effect_insert_ne _ _ (by decide), inserted_all_ne _ _ (by decide),
    with_job_ne (by decide), Schema.effect_insert_self]

theorem mem_with_upload_job {account : UserAccount} {document : Document}
    {extraction : ExtractionResult} {db : Database} {j : Job}
    (h : j ∈ with_upload env account document extraction db .job) :
    j ∈ db .job ∨ j = ocr_job env document.id := by
  unfold with_upload with_pages with_job at h
  rw [Schema.effect_insert_ne _ _ (by decide), inserted_all_ne _ _ (by decide)] at h
  split at h
  · rcases Schema.mem_effect_insert.mp h with hold | hnew
    · rw [Schema.effect_insert_ne _ _ (by decide)] at hold
      exact .inl hold
    · exact .inr hnew
  · rw [Schema.effect_insert_ne _ _ (by decide)] at h
    exact .inl h

/-- The statements of an upload, each with the rows it meets. -/
inductive UploadStatement (env : Env) (account : UserAccount) (document : Document)
    (extraction : ExtractionResult) (db : Database) : Database → Write Row Patch Uuid → Prop where
  | document : UploadStatement env account document extraction db db (.insert .document document)
  | job : UploadStatement env account document extraction db
      (schema.effect (.insert .document document) db) (.insert .job (ocr_job env document.id))
  | page (before : List DocumentPage) (page : DocumentPage) (after : List DocumentPage)
      (split : page_rows env document.id extraction.pages = before ++ page :: after) :
      UploadStatement env account document extraction db
        (with_pages env document extraction before db) (.insert .document_page page)
  | audit : UploadStatement env account document extraction db
      (with_pages env document extraction (page_rows env document.id extraction.pages) db)
      (.insert .case_audit_event
        (upload_audit env account document.case_id document.page_count.toNat))

/-! ### How an upload goes -/

/-- The upload gets as far as the store. -/
structure StoresUpload (srv : Server Token) (env : Env) (credentials : Option Token)
    (case_id : Uuid) (upload : Upload) (db : Database) (auth : Authenticated) : Prop where
  signed_in : SignedIn srv env credentials db auth
  owned : ∃ c ∈ db .case_, Case.id c = case_id ∧ c.owner_id = auth.account.id
  within : WithinLimit default_max_upload_bytes upload
  source : (parse_source upload.source).isSome = true
  unrecorded : ∀ d ∈ db .document, Document.case_id d = case_id →
    d.content_hash ≠ content_hash srv upload.data

/-- Why an upload that stored its bytes does not record them. -/
inductive Spoiled (srv : Server Token) (env : Env) (account : UserAccount) (case_id : Uuid)
    (upload : Upload) (s : Session) : Prop where
  | store (h : s.ext.outcome ≠ .works)
  | unreadable (e : Exc) (h : extract_text_layer srv upload.data default_max_pages
      default_max_chars_per_page = .error e)
  | fault (h : true ∈ s.faults)
  | refused (source : IngestSource) (extraction : ExtractionResult)
      (read : extract_text_layer srv upload.data default_max_pages
        default_max_chars_per_page = .ok extraction)
      (db : Database) (w : Write Row Patch Uuid) (v : Violation)
      (statement : UploadStatement env account
        (uploaded_document srv env case_id upload source extraction) extraction s.db db w)
      (check : schema.check db w = some v)

theorem wps_queue_ocr {document_id : Uuid} {extraction : ExtractionResult}
    {Q : Except Exc Unit → Session → Prop}
    (hfault : true ∈ s.faults → ∀ v s', s'.ext = s.ext → Q (.error (.database v)) s')
    (hrefused : ∀ v, schema.check s.db (.insert .job (ocr_job env document_id)) = some v →
      ∀ s', s'.ext = s.ext → Q (.error (.database v)) s')
    (hok : ∀ faults, faults ⊆ s.faults → Q (.ok ()) { s with
      db := with_job env document_id extraction s.db, faults := faults }) :
    wps (queue_ocr env document_id extraction) Q s := by
  unfold queue_ocr
  unfold with_job at hok
  cases hneeds : extraction.needs_ocr with
  | false =>
    rw [hneeds] at hok
    exact (wp_pure _).mpr (hok s.faults (List.Subset.refl _))
  | true =>
    rw [hneeds] at hok
    refine wps_bind (wps_bind (wp_execute_cases (fun hf => ?_) (fun v hv => ?_) fun _ _ => ?_))
    · exact hfault (List.mem_of_mem_head? hf) _ _ rfl
    · exact hrefused v hv _ rfl
    · exact (wp_pure _).mpr ((wp_pure _).mpr
        (hok s.faults.tail fun x hx => List.mem_of_mem_tail hx))

/-- **Upload.** It is refused before the store is asked, is spoiled after that, or leaves all
    its rows and its bytes. -/
theorem wps_upload_document {credentials : Option Token} {case_id : Uuid} {upload : Upload}
    {Q : Except Exc (Reply Token) → Session → Prop}
    (hrefused : ∀ e, Q (.error e) s)
    (hspoiled : ∀ auth e s', StoresUpload srv env credentials case_id upload s.db auth →
      Spoiled srv env auth.account case_id upload s →
      s'.ext = s.ext.written (upload_key srv case_id upload) (some upload.data) →
      Q (.error e) s')
    (hok : ∀ auth source extraction s',
      StoresUpload srv env credentials case_id upload s.db auth →
      extract_text_layer srv upload.data default_max_pages default_max_chars_per_page =
        .ok extraction →
      s.ext.outcome = .works →
      s'.db = with_upload env auth.account
        (uploaded_document srv env case_id upload source extraction) extraction s.db →
      s'.ext = s.ext.written (upload_key srv case_id upload) (some upload.data) →
      Q (.ok (.document (document_response
        (uploaded_document srv env case_id upload source extraction)))) s') :
    wps (upload_document srv env credentials case_id upload) Q s := by
  refine wps_current_user_bind (fun e => hrefused e) fun auth hauth => ?_
  refine wps_bind (wps_select_one_bind (hrefused _) (fun _ => ?_) fun c hc hpick _ => ?_)
  · exact wps_some_or.mpr ⟨fun _ h => (by cases h), fun _ => hrefused _⟩
  refine wps_some_or.mpr ⟨fun c' hc' => ?_, fun _ => hrefused _⟩
  cases hc'
  have hpick' : Case.id c = case_id ∧ c.owner_id = auth.account.id := by simpa using hpick
  obtain ⟨rfl, howner⟩ := hpick'
  refine wps_bind ((wp_rethrow _ _).mpr (wps_read_bounded (fun _ => hrefused _) fun hwithin => ?_))
  refine wps_some_or_bind (fun _ => hrefused _) fun source hsource => ?_
  refine wps_bind ((wp_rethrow _ _).mpr ?_)
  refine wps_select_one_bind (hrefused _) (fun hnew => ?_) fun existing _ _ _ => ?_
  swap
  · exact (wp_raise _).mpr (hrefused _)
  have hstores : StoresUpload srv env credentials c.id upload s.db auth := by
    refine ⟨hauth, ⟨c, hc, rfl, howner⟩, hwithin, by rw [hsource]; rfl, ?_⟩
    intro d hd hcase heq
    have hnone := hnew d hd
    simp [hcase, heq] at hnone
  -- from here on the store is asked: whatever fails leaves the bytes behind
  refine wps_bind (wps_bind (wp_perform_ext.mpr ?_))
  by_cases hworks : s.ext.outcome = .works
  swap
  · -- the bytes may be there, the call has failed
    simp only [run_ext, if_neg hworks]
    exact (wp_raise _).mpr (hspoiled auth _ _ hstores (.store hworks) rfl)
  simp only [run_ext, if_pos hworks]
  refine (wp_pure _).mpr (wps_bind (wps_ok_or.mpr ?_))
  cases hread : extract_text_layer srv upload.data default_max_pages
      default_max_chars_per_page with
  | error e => exact hspoiled auth _ _ hstores (.unreadable e hread) rfl
  | ok extraction =>
    have hspoil : ∀ db w v, UploadStatement env auth.account
        (uploaded_document srv env c.id upload source extraction) extraction s.db db w →
        schema.check db w = some v → Spoiled srv env auth.account c.id upload s :=
      fun db w v hst hchk => .refused source extraction hread db w v hst hchk
    -- the rows in the source's order: the document, its job, its pages, the audit entry
    refine wps_bind (wps_bind (wp_execute_cases (fun hf => ?_) (fun v hv => ?_) fun _ _ => ?_))
    · exact hspoiled auth _ _ hstores (.fault (List.mem_of_mem_head? hf)) rfl
    · exact hspoiled auth _ _ hstores (hspoil _ _ _ .document hv) rfl
    refine wps_bind (wps_queue_ocr (fun hmem v s' hext => ?_) (fun v hv s' hext => ?_)
      fun faults hsub => ?_)
    · exact hspoiled auth _ _ hstores (.fault (List.mem_of_mem_tail hmem)) hext
    · exact hspoiled auth _ _ hstores (hspoil _ _ _ .job hv) hext
    refine wps_insert_all (fun hmem v s' hext => ?_) (fun before page later v hsplit hv s' hext => ?_)
      fun faults' hsub' => ?_
    · exact hspoiled auth _ _ hstores (.fault (List.mem_of_mem_tail (hsub hmem))) hext
    · exact hspoiled auth _ _ hstores (hspoil _ _ _ (.page before page later hsplit) hv) hext
    refine (wp_pure _).mpr (wps_bind (wp_execute_cases (fun hf => ?_) (fun v hv => ?_) fun _ _ => ?_))
    · have hmem : true ∈ faults' := List.mem_of_mem_head? hf
      exact hspoiled auth _ _ hstores (.fault (List.mem_of_mem_tail (hsub (hsub' hmem)))) rfl
    · exact hspoiled auth _ _ hstores (hspoil _ _ _ .audit hv) rfl
    · exact (wp_pure _).mpr (hok auth source extraction _ hstores hread hworks rfl rfl)

/-! ### An upload that nothing spoils -/

/-- `hashlib.sha256(..).hexdigest()` has 64 characters. -/
def Sha256 (srv : Server Token) : Prop := ∀ data, (srv.sha256 data).length = 64

theorem length_upload_key (hsha : Sha256 srv) (case_id : Uuid) (upload : Upload) :
    (upload_key srv case_id upload).length ≤ 500 := by
  have hstr : case_id.str.length = 36 := by
    rw [← String.length_toList]
    exact case_id.length_str
  have hhash : (content_hash srv upload.data).length = 64 := hsha upload.data
  have hpre : "cases/".length = 6 := rfl
  have hmid : "/documents/".length = 11 := rfl
  simp [upload_key, storage_key, hstr, hhash, hpre, hmid]

/-- The rows of the pages, one by one: the id drawn for each, and what the extraction
    gave for it. -/
theorem page_row_at {document_id : Uuid} {extraction : ExtractionResult} {data : Bytes}
    (hread : extract_text_layer srv data default_max_pages default_max_chars_per_page =
      .ok extraction) {i : Nat} {row : DocumentPage}
    (h : (page_rows env document_id extraction.pages)[i]? = some row) :
    i < default_max_pages ∧ ∃ page ∈ extraction.pages, page.page_number = (i : Int) + 1 ∧
      row = ⟨env.uuid (3 + i), document_id, page.page_number, page.text, none⟩ := by
  simp only [page_rows, List.getElem?_mapIdx, Option.map_eq_some_iff] at h
  obtain ⟨page, hpage, rfl⟩ := h
  have hlt : i < extraction.pages.length := (List.getElem?_eq_some_iff.mp hpage).1
  have hnum : page.page_number = (i : Int) + 1 := by
    obtain ⟨n, hn⟩ := extract_text_layer_numbers hread
    have hat := congrArg (fun l : List Int => l[i]?) hn
    simp only [List.getElem?_map, hpage, Option.map_some] at hat
    by_cases hin : i < n
    · simpa [List.getElem?_range, hin] using hat
    · simp [hin] at hat
  exact ⟨Nat.lt_of_lt_of_le hlt (extract_text_layer_length hread).2, page,
    List.mem_of_getElem? hpage, hnum, rfl⟩

section admission
variable {credentials : Option Token} {case_id : Uuid} {upload : Upload} {auth : Authenticated}
  {source : IngestSource} {extraction : ExtractionResult} {db : Database}

/-- The document: a title that fits, bytes new to the case, and the case is there. -/
theorem upload_row_admitted (hsha : Sha256 srv)
    (hids : ∀ t, ∀ r ∈ db t, ∀ i, row_pk t r ≠ env.uuid i)
    (hstores : StoresUpload srv env credentials case_id upload db auth)
    (htitle : (upload_request case_id upload source).title.length ≤ 300)
    (htext : storable (upload_request case_id upload source).title = true) :
    schema.check db (.insert .document
      (uploaded_document srv env case_id upload source extraction)) = none := by
  obtain ⟨c, hcase, hcid, _⟩ := hstores.owned
  refine Schema.check_insert_of ?_ (fun d hd => ⟨hids .document d hd 0, ?_⟩) ?_
  · have hhash : (content_hash srv upload.data).length = 64 := hsha upload.data
    have hkey := length_upload_key hsha case_id upload
    simp [schema, row_fits, columns, varchar, uploaded_document, new_document, hhash, hkey,
      htitle, htext]
  · have hnew := hstores.unrecorded d hd
    simp only [schema, row_clash, uploaded_document, new_document, upload_request,
      Bool.and_eq_false_iff, beq_eq_false_iff_ne]
    by_cases hcase' : Document.case_id d = case_id
    · exact .inr (hnew hcase')
    · exact .inl hcase'
  · refine Schema.anchored_iff.mpr fun k hk j hj => ?_
    obtain rfl := List.mem_singleton.mp hk
    obtain rfl := Option.some.inj hj
    exact ⟨c, hcase, hcid⟩

theorem upload_job_admitted {document : Document}
    (hids : ∀ t, ∀ r ∈ db t, ∀ i, row_pk t r ≠ env.uuid i) :
    schema.check (schema.effect (.insert .document document) db)
      (.insert .job (ocr_job env document.id)) = none := by
  refine Schema.check_insert_of rfl (fun j hj => ⟨?_, rfl⟩) rfl
  rw [Schema.effect_insert_ne _ _ (by decide)] at hj
  exact hids .job j hj 1

/-- No row has the id of a page to come, or its number in the same document. -/
theorem page_row_new {before later : List DocumentPage} {page : DocumentPage}
    (hc : schema.Consistent db) (hids : ∀ t, ∀ r ∈ db t, ∀ i, row_pk t r ≠ env.uuid i)
    (hdistinct : ∀ i < draws, ∀ j < draws, env.uuid i = env.uuid j → i = j)
    (hread : extract_text_layer srv upload.data default_max_pages default_max_chars_per_page =
      .ok extraction)
    (hsplit : page_rows env (env.uuid 0) extraction.pages = before ++ page :: later) :
    ∀ r ∈ db .document_page ++ before,
      DocumentPage.id r ≠ page.id ∧ row_clash .document_page r page = false := by
  have hat : ∀ i row, (before ++ page :: later)[i]? = some row → i < default_max_pages ∧
      row.id = env.uuid (3 + i) ∧ row.document_id = env.uuid 0 ∧
        row.page_number = (i : Int) + 1 := by
    intro i row hrow
    rw [← hsplit] at hrow
    obtain ⟨hlt, p, _, hnum, rfl⟩ := page_row_at hread hrow
    exact ⟨hlt, rfl, rfl, hnum⟩
  obtain ⟨hlt, hid, hdoc, hnum⟩ := hat before.length page (by simp)
  have hdraws : draws = default_max_pages + 3 := rfl
  intro r hr
  rcases List.mem_append.mp hr with hold | hnew
  · refine ⟨fun heq => hids .document_page r hold (3 + before.length) (heq.trans hid), ?_⟩
    -- no page points at a document that is yet to come
    obtain ⟨d, hd, hdid⟩ := hc.target (k := belongs .document DocumentPage.document_id) hold
      List.mem_cons_self rfl
    have hne : DocumentPage.document_id r ≠ page.document_id := by
      rw [hdoc]
      intro heq
      exact hids .document d hd 0 (hdid.trans heq)
    simp [row_clash, hne]
  · obtain ⟨j, hj, rfl⟩ := List.getElem_of_mem hnew
    obtain ⟨hjlt, hjid, _, hjnum⟩ := hat j before[j]
      (by rw [List.getElem?_append_left hj, List.getElem?_eq_getElem hj])
    refine ⟨fun heq => ?_, ?_⟩
    · have hsame := hdistinct (3 + j) (by omega) (3 + before.length) (by omega)
        (hjid.symm.trans (heq.trans hid))
      omega
    · have hne : before[j].page_number ≠ page.page_number := by
        rw [hjnum, hnum]
        omega
      simp [row_clash, hne]

theorem upload_page_admitted {before later : List DocumentPage} {page : DocumentPage}
    (hc : schema.Consistent db) (hids : ∀ t, ∀ r ∈ db t, ∀ i, row_pk t r ≠ env.uuid i)
    (hdistinct : ∀ i < draws, ∀ j < draws, env.uuid i = env.uuid j → i = j)
    (hread : extract_text_layer srv upload.data default_max_pages default_max_chars_per_page =
      .ok extraction)
    (htexts : ∀ p ∈ extraction.pages, storable p.text = true)
    (hsplit : page_rows env (env.uuid 0) extraction.pages = before ++ page :: later) :
    schema.check (with_pages env (uploaded_document srv env case_id upload source extraction)
      extraction before db) (.insert .document_page page) = none := by
  have hpage : (page_rows env (env.uuid 0) extraction.pages)[before.length]? = some page := by
    rw [hsplit]
    simp
  obtain ⟨_, p, hp, hnum, rfl⟩ := page_row_at hread hpage
  refine Schema.check_insert_of ?_ (fun r hr => ?_) ?_
  · have hpos : (1 : Int) ≤ p.page_number := by omega
    simp [schema, row_fits, columns, htexts p hp, hpos]
  · rw [with_pages, inserted_all_self, with_job_ne (by decide),
      Schema.effect_insert_ne _ _ (by decide)] at hr
    exact page_row_new hc hids hdistinct hread hsplit r hr
  · refine Schema.anchored_iff.mpr fun k hk j hj => ?_
    obtain rfl := List.mem_singleton.mp hk
    obtain rfl := Option.some.inj hj
    refine ⟨uploaded_document srv env case_id upload source extraction, ?_, rfl⟩
    rw [with_pages]
    dsimp only [belongs]
    rw [inserted_all_ne _ _ (by decide), with_job_ne (by decide), Schema.effect_insert_self]
    exact List.mem_append_right _ (List.mem_singleton_self _)

theorem upload_audit_admitted {document : Document}
    (hids : ∀ t, ∀ r ∈ db t, ∀ i, row_pk t r ≠ env.uuid i) (hcase : document.case_id = case_id)
    (hstores : StoresUpload srv env credentials case_id upload db auth)
    {pages : List DocumentPage} {n : Nat} :
    schema.check (with_pages env document extraction pages db) (.insert .case_audit_event
      (upload_audit env auth.account document.case_id n)) = none := by
  obtain ⟨c, hmem, hcid, _⟩ := hstores.owned
  have hkeep : ∀ {t : Table}, .document ≠ t → .job ≠ t → .document_page ≠ t →
      with_pages env document extraction pages db t = db t := by
    intro t hd hj hp
    rw [with_pages, inserted_all_ne _ _ hp, with_job_ne hj, Schema.effect_insert_ne _ _ hd]
  refine Schema.check_insert_of rfl (fun r hr => ⟨?_, rfl⟩) ?_
  · rw [hkeep (by decide) (by decide) (by decide)] at hr
    exact hids .case_audit_event r hr 2
  · refine Schema.anchored_iff.mpr fun k hk j hj => ?_
    rcases List.mem_cons.mp hk with rfl | hk
    · obtain rfl := Option.some.inj hj
      refine ⟨auth.account, ?_, rfl⟩
      rw [hkeep (by decide) (by decide) (by decide)]
      exact hstores.signed_in.account
    · obtain rfl := List.mem_singleton.mp hk
      obtain rfl := Option.some.inj hj
      refine ⟨c, ?_, hcid.trans hcase.symm⟩
      rw [hkeep (by decide) (by decide) (by decide)]
      exact hmem

/-- **Admission.** In a consistent database, with ids nobody has drawn before, the
    constraints admit every statement of an upload whose title fits and whose texts the
    columns hold. -/
theorem upload_statement_admitted {db' : Database} {w : Write Row Patch Uuid} (hsha : Sha256 srv)
    (hc : schema.Consistent db) (hids : ∀ t, ∀ r ∈ db t, ∀ i, row_pk t r ≠ env.uuid i)
    (hdistinct : ∀ i < draws, ∀ j < draws, env.uuid i = env.uuid j → i = j)
    (hstores : StoresUpload srv env credentials case_id upload db auth)
    (htitle : (upload_request case_id upload source).title.length ≤ 300)
    (htext : storable (upload_request case_id upload source).title = true)
    (hread : extract_text_layer srv upload.data default_max_pages default_max_chars_per_page =
      .ok extraction)
    (htexts : ∀ p ∈ extraction.pages, storable p.text = true)
    (hst : UploadStatement env auth.account
      (uploaded_document srv env case_id upload source extraction) extraction db db' w) :
    schema.check db' w = none := by
  cases hst with
  | document => exact upload_row_admitted hsha hids hstores htitle htext
  | job => exact upload_job_admitted hids
  | page before page later hsplit =>
    exact upload_page_admitted hc hids hdistinct hread htexts hsplit
  | audit => exact upload_audit_admitted hids rfl hstores

end admission

end CounselReady
