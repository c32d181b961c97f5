import CounselReady.Guarantees.ErasedBytes
import CounselReady.Specs.Admission

/-! # Column Widths

    The request models bound the strings they admit, the columns bound the strings
    they hold. What validation lets through is to fit the columns it goes to.
-/

namespace CounselReady

open Relational Framework Handler Prog

variable {Token : Type} {srv : Server Token} {env : Env} {s : Session}

/-! ### Statements that fit -/

@[simp] theorem columns_data {lengths texts checks : Bool} :
    columns lengths texts checks = some .data ↔ lengths = false := by
  unfold columns
  cases lengths <;> cases texts <;> cases checks <;> simp

/-- Every string of an INSERT fits its column. The routes below UPDATE nothing. -/
def StringsFit : Op Row Patch Uuid Ext → Prop
  | .write (.insert t row) => row_fits t row ≠ some .data
  | .write (.update _ _ _) => False
  | _ => True

/-- No database refuses such a statement for a length. -/
theorem StringsFit.admitted {w : Write Row Patch Uuid} (h : StringsFit (.write w))
    (db : Database) : schema.check db w ≠ some .data := by
  cases w with
  | insert t row =>
    intro hcheck
    simp only [Schema.check] at hcheck
    split at hcheck
    · next v hfits =>
      cases hcheck
      exact h hfits
    · split at hcheck
      · cases hcheck
      · split at hcheck <;> cases hcheck
  | update t id patch => exact h.elim
  | delete t id => exact fun hcheck => by cases hcheck

/-- What a read may do fits. -/
theorem harmless {o : Op Row Patch Uuid Ext} (h : permits srv env .me o) : StringsFit o := by
  cases o with
  | select t p => trivial
  | snapshot => trivial
  | ext e => trivial
  | write w =>
    cases w with
    | insert t row =>
      have hpermit := h.2
      cases t <;> simp [permits_insert, Route.registers, Route.signs_in, Route.refreshes,
        Route.opens_case, Route.on_cases, Route.uploads, Route.records_event,
        Route.records_note, Route.sets_up, Route.adds_passkey, Route.asks_challenge] at hpermit
    | update t id patch =>
      cases t <;> cases patch <;> simp [permits, permits_update, Route.is_login, Route.revokes,
        Route.refreshes, Route.sets_up, Route.confirms, Route.checks_code,
        Route.uses_passkey] at h
    | delete t id => trivial

theorem fit_current_user {credentials : Option Token} :
    Confined StringsFit (current_user srv env credentials) :=
  every_mono (@confined_current_user Token srv env .me credentials) fun _ => harmless

theorem fit_owned_case {account : UserAccount} {case_id : Uuid} :
    Confined StringsFit (owned_case account case_id) :=
  confined_bind (confined_select_one trivial) fun _ => confined_some_or

theorem fit_audit {id : Uuid} {account : UserAccount} {case_id : Option Uuid}
    {action : CaseAction} {detail : Option (List (String × Nat))} :
    Confined StringsFit (audit id account case_id action detail) :=
  confined_insert (fun h => by cases h)

/-- What the condition has let through may be used. -/
theorem confined_require_bind {A : Op Row Patch Uuid Ext → Prop} {β : Type} {c : Bool} {e : Exc}
    {f : Unit → Handler β} (hf : c = true → Confined A (f ())) :
    Confined A (require c e >>= f) := by
  cases c with
  | true => exact hf rfl
  | false => exact every_raise e

theorem confined_some_or_bind {A : Op Row Patch Uuid Ext → Prop} {α β : Type} {x : Option α}
    {e : Exc} {f : α → Handler β} (hf : ∀ a, x = some a → Confined A (f a)) :
    Confined A (some_or x e >>= f) := by
  cases x with
  | some a => exact hf a rfl
  | none => exact every_raise e

/-! ### What does not fit -/

/-- An address that passes validation and is too long once it is normalised. -/
def LongAddress (srv : Server Token) (email password : String) (display_name : Option String) :
    Prop :=
  ∃ address, srv.email_str email = some address ∧
    length_within min_password_length max_password_length password = true ∧
    length_at_most 200 display_name = true ∧ 320 < (normalize_email srv address).length

/-- An upload that gets as far as its document. -/
structure Records (srv : Server Token) (env : Env) (credentials : Option Token) (case_id : Uuid)
    (upload : Upload) (w : Committed) : Prop where
  stores : ∃ auth, StoresUpload srv env credentials case_id upload w.db auth
  works : (w.begin env).ext.outcome = .works
  readable : ∃ extraction, extract_text_layer srv upload.data default_max_pages
    default_max_chars_per_page = .ok extraction

/-- The title a document is to have, from the form or from the file's name. -/
def upload_title (upload : Upload) : String :=
  or_else upload.title (or_else upload.filename "Untitled document")

/-- What a request validated too generously writes. -/
inductive Overlong (srv : Server Token) (env : Env) (w : Committed) : Request Token → Prop where
  | address (credentials : Option Token) (email password : String) (display_name : Option String)
      (long : LongAddress srv email password display_name) :
      Overlong srv env w ⟨credentials, .register email password display_name⟩
  | title (credentials : Option Token) (case_id : Uuid) (upload : Upload)
      (records : Records srv env credentials case_id upload w)
      (long : 300 < (upload_title upload).length) :
      Overlong srv env w ⟨credentials, .upload_document case_id upload⟩

/-- `PasswordHasher.hash` gives no more than the column holds. -/
def ShortHashes (srv : Server Token) : Prop :=
  ∀ salt password, (srv.argon2_hash salt password).length ≤ 255

/-- An optional field that validation bounds fits a column of that width. -/
theorem varchar_of_length {n : Nat} {field : Option String} (h : length_at_most n field = true) :
    varchar_null n field = true := by
  cases field with
  | none => rfl
  | some text => simpa [length_at_most, length_within, varchar_null, varchar] using h

/-! ### Registration -/

theorem validate_password_of_length {password : String}
    (h : length_within min_password_length max_password_length password = true) :
    validate_password password = none := by
  simp only [length_within, Bool.and_eq_true, decide_eq_true_eq] at h
  unfold validate_password
  rw [if_neg (by omega), if_neg (by omega)]

theorem fit_register (hhash : ShortHashes srv) {email password : String}
    {display_name : Option String} (hshort : ¬ LongAddress srv email password display_name) :
    Confined StringsFit (register srv env email password display_name) := by
  refine confined_some_or_bind fun address haddress => ?_
  refine confined_require_bind fun hpassword => ?_
  refine confined_require_bind fun hname => ?_
  have hfits : (normalize_email srv address).length ≤ 320 := by
    by_contra hlong
    exact hshort ⟨address, haddress, hpassword, hname, Nat.not_le.mp hlong⟩
  have hname' := varchar_of_length hname
  refine confined_bind ((every_rethrow _ _).mpr ?_) fun _ => every_pure _
  let account : UserAccount := ⟨env.uuid 0, normalize_email srv address, display_name, true,
    some (srv.argon2_hash env.salt password)⟩
  have hinsert : StringsFit (.write (.insert .user_account account)) := by
    have hcolumns : (varchar 320 account.email && varchar_null 200 account.display_name &&
        varchar_null 255 account.password_hash) = true := by
      rw [hname']
      simp [account, varchar, varchar_null, hfits, hhash env.salt password]
    simp [StringsFit, row_fits, hcolumns]
  unfold register_account hash_password
  rw [validate_password_of_length hpassword]
  show Confined StringsFit ((Handler.insert .user_account account).rethrow taken >>=
    fun _ => pure account)
  exact confined_bind ((every_rethrow _ _).mpr (confined_insert hinsert)) fun _ => every_pure _

/-- The account's row is the first thing a registration writes. -/
theorem register_performs {email password : String} {display_name : Option String}
    {address : String} (haddress : srv.email_str email = some address)
    (hpassword : length_within min_password_length max_password_length password = true)
    (hname : length_at_most 200 display_name = true) :
    ∃ account : UserAccount, account.email = normalize_email srv address ∧
      Op.write (.insert .user_account account) ∈
        (register srv env email password display_name).performed (perform schema run_ext) s := by
  unfold register register_account hash_password
  rw [haddress, hpassword, hname, validate_password_of_length hpassword]
  exact ⟨⟨env.uuid 0, normalize_email srv address, display_name, true,
    some (srv.argon2_hash env.salt password)⟩, rfl, List.mem_cons_self⟩

/-! ### Uploads -/

theorem fit_record_document {document : Document} {extraction : ExtractionResult}
    (htitle : document.title.length ≤ 300) (hkey : document.storage_key.length ≤ 500)
    (hhash : document.content_hash.length ≤ 64) :
    Confined StringsFit (record_document env document extraction) := by
  refine confined_bind (confined_insert ?_) fun _ => confined_bind ?_ fun _ => ?_
  · simp [StringsFit, row_fits, varchar, htitle, hkey, hhash]
  · unfold queue_ocr
    by_cases hneeds : extraction.needs_ocr = true
    · rw [if_pos hneeds]
      refine confined_bind (confined_bind (confined_insert ?_) fun _ => every_pure _)
        fun _ => every_pure _
      simp [StringsFit, row_fits, varchar_null]
    · rw [if_neg hneeds]
      exact every_pure _
  · refine confined_insert_all fun row _ => ?_
    simp [StringsFit, row_fits]

/-- The document's row, as far as its strings go. -/
theorem fit_ingest_document (hsha : Sha256 srv) {case_id : Uuid} {upload : Upload}
    {source : IngestSource}
    (hshort : s.ext.outcome = .works → (∃ extraction, extract_text_layer srv upload.data
      default_max_pages default_max_chars_per_page = .ok extraction) →
      (∀ d ∈ s.db .document, Document.case_id d = case_id →
        d.content_hash ≠ content_hash srv upload.data) → (upload_title upload).length ≤ 300) :
    ∀ o ∈ (ingest_document srv env (upload_request case_id upload source)).performed
      (perform schema run_ext) s, StringsFit o := by
  refine performed_bind_every (confined_select_one trivial) (wps_select_one (fun hnew => ?_)
    (fun d _ _ _ => ?_) fun _ => ?_)
  · intro existing hexisting
    cases hexisting
    have hfresh : ∀ d ∈ s.db .document, Document.case_id d = case_id →
        d.content_hash ≠ content_hash srv upload.data := by
      intro d hd hcase heq
      have hnone := hnew d hd
      simp [upload_request, hcase, heq] at hnone
    refine performed_bind_every (confined_put trivial) (wps_bind (wp_perform_ext.mpr ?_))
    by_cases hworks : s.ext.outcome = .works
    swap
    · simp only [run_ext, if_neg hworks]
      exact (wp_raise _).mpr fun _ h => by cases h
    simp only [run_ext, if_pos hworks]
    refine (wp_pure _).mpr fun done _ => performed_bind_every confined_ok_or (wps_ok_or.mpr ?_)
    intro extraction hread
    have htitle := hshort hworks ⟨extraction, hread⟩ hfresh
    have hrows : Confined StringsFit (record_document env (uploaded_document srv env case_id
        upload source extraction) extraction >>= fun _ => pure (uploaded_document srv env case_id
        upload source extraction)) :=
      confined_bind (fit_record_document htitle (length_upload_key hsha case_id upload)
        (Nat.le_of_eq (hsha upload.data))) fun _ => every_pure _
    exact hrows.performed
  · intro existing hexisting o ho
    cases hexisting
    cases ho
  · exact fun _ h => by cases h

/-- An upload writes a title that fits, or it does not get that far. -/
theorem fit_upload (hsha : Sha256 srv) {w : Committed} {credentials : Option Token}
    {case_id : Uuid} {upload : Upload}
    (hshort : Records srv env credentials case_id upload w → (upload_title upload).length ≤ 300) :
    ∀ o ∈ (upload_document srv env credentials case_id upload).performed
      (perform schema run_ext) (w.begin env), StringsFit o := by
  refine performed_bind_every fit_current_user ?_
  rw [← bind_ret (current_user srv env credentials)]
  refine wps_current_user_bind (fun e a h => by cases h) fun auth hauth => (wp_pure _).mpr ?_
  intro account haccount
  cases haccount
  refine performed_bind_every fit_owned_case (wps_bind (wps_select_one (fun _ => ?_)
    (fun c hc hpick _ => ?_) fun _ => ?_))
  · exact wps_some_or.mpr ⟨fun _ h => (by cases h), fun _ _ h => (by cases h)⟩
  swap
  · exact fun _ h => by cases h
  refine wps_some_or.mpr ⟨fun c' hc' => ?_, fun _ _ h => (by cases h)⟩
  cases hc'
  intro case hcase
  cases hcase
  simp only [Bool.and_eq_true, beq_iff_eq] at hpick
  obtain ⟨rfl, howner⟩ := hpick
  have hread : Confined StringsFit ((read_bounded (stream upload.data) default_max_upload_bytes
      upload.content_length).rethrow read_answer) :=
    (every_rethrow _ _).mpr (every_mono (@confined_read_bounded Token srv env .me _ _ _)
      fun _ => harmless)
  refine performed_bind_every hread ((wp_rethrow _ _).mpr (wps_read_bounded
    (fun _ _ h => (by cases h)) fun hwithin => ?_))
  intro data hdata
  cases hdata
  refine performed_bind_every confined_some_or (wps_some_or.mpr ⟨fun source hsource => ?_,
    fun _ _ h => (by cases h)⟩)
  intro ingest_source hingest
  cases hingest
  intro o ho
  rcases mem_performed_bind_iff.mp ho with hingest | ⟨document, _, haudit⟩
  · rw [performed_rethrow] at hingest
    refine fit_ingest_document hsha (fun hworks hreadable hnew => hshort ?_) o hingest
    exact ⟨⟨auth, hauth, ⟨c, hc, rfl, howner⟩, hwithin, by rw [hsource]; rfl, hnew⟩, hworks,
      hreadable⟩
  · have hrest : Confined StringsFit (audit (env.uuid 2) auth.account (some c.id)
        .document_uploaded (some [("pages", document.page_count.toNat)]) >>=
        fun _ => pure (Reply.document (document_response document) : Reply Token)) :=
      confined_bind fit_audit fun _ => every_pure _
    exact hrest.performed o haudit

/-- The document's row is the first thing an upload writes. -/
theorem upload_performs {w : Committed} {credentials : Option Token} {case_id : Uuid}
    {upload : Upload} (hc : schema.Consistent w.db)
    (h : Records srv env credentials case_id upload w) :
    ∃ document : Document, document.title = upload_title upload ∧
      Op.write (.insert .document document) ∈
        (upload_document srv env credentials case_id upload).performed
          (perform schema run_ext) (w.begin env) := by
  obtain ⟨auth, hauth, ⟨c, hmem, rfl, howner⟩, hwithin, hsource, hnew⟩ := h.stores
  obtain ⟨extraction, hread⟩ := h.readable
  obtain ⟨source, hsource⟩ := Option.isSome_iff_exists.mp hsource
  refine ⟨uploaded_document srv env c.id upload source extraction, rfl, ?_⟩
  refine mem_performed_bind ?_
  rw [← bind_ret (current_user srv env credentials)]
  refine wps_current_user_admitted hc hauth ((wp_pure _).mpr ⟨auth.account, rfl, ?_⟩)
  refine mem_performed_bind ?_
  rw [← bind_ret (owned_case auth.account c.id)]
  refine wps_owned_case_admitted hc hmem howner ((wp_pure _).mpr ⟨c, rfl, ?_⟩)
  have hdeclared : ¬ (upload.content_length.any
      (fun n => decide (default_max_upload_bytes < n))) = true := by
    rw [Option.any_eq_true]
    rintro ⟨n, hn, hover⟩
    have hle := hwithin.declared n hn
    have hlt := of_decide_eq_true hover
    omega
  have hdata : read_bounded (stream upload.data) default_max_upload_bytes upload.content_length =
      pure upload.data := by
    rw [read_bounded_eq, flatten_stream, if_neg hdeclared,
      if_neg (Nat.not_lt.mpr hwithin.length), if_neg]
    intro hnil
    exact hwithin.nonempty (List.isEmpty_iff.mp hnil)
  rw [hdata, hsource]
  -- the file and its source are read, the next step is the ingest
  refine mem_performed_bind ((wp_rethrow _ _).mpr ((wp_pure _).mpr ⟨upload.data, rfl, ?_⟩))
  refine mem_performed_bind ((wp_pure _).mpr ⟨source, rfl, ?_⟩)
  refine mem_performed_bind_iff.mpr (.inl ?_)
  rw [performed_rethrow]
  have hnone : ∀ d ∈ (w.begin env).db .document, (Document.case_id d == c.id &&
      Document.content_hash d == content_hash srv upload.data) = false := by
    intro d hd
    by_contra htwin
    simp only [Bool.not_eq_false, Bool.and_eq_true, beq_iff_eq] at htwin
    exact hnew d hd htwin.1 htwin.2
  refine mem_performed_bind (wps_select_one (fun _ => ⟨none, rfl, ?_⟩) (fun d hd htwin _ => ?_)
    fun hmany => ?_)
  · refine mem_performed_bind (wps_bind (wp_perform_ext.mpr ?_))
    simp only [run_ext, if_pos h.works]
    refine (wp_pure _).mpr ⟨(), rfl, mem_performed_bind (wps_ok_or.mpr ⟨extraction, hread, ?_⟩)⟩
    exact List.mem_cons_self
  · rw [hnone d hd] at htwin
    cases htwin
  · have hempty : ((w.begin env).db .document).filter (fun d : Document =>
        d.case_id == c.id && d.content_hash == content_hash srv upload.data) = [] :=
      List.filter_eq_nil_iff.mpr fun d hd htwin => by
        rw [hnone d hd] at htwin
        cases htwin
    have hlong := hmany
    rw [hempty] at hlong
    exact absurd hlong (by decide)

/-! ### The other routes -/

theorem fit_create_case {credentials : Option Token} {title : String}
    {court case_number : Option String} :
    Confined StringsFit (create_case srv env credentials title court case_number) := by
  refine confined_bind fit_current_user fun account => ?_
  refine confined_require_bind fun htitle => ?_
  refine confined_require_bind fun hcourt => ?_
  refine confined_require_bind fun hnumber => ?_
  refine confined_bind (confined_insert ?_) fun _ => confined_bind fit_audit fun _ => every_pure _
  have htitle' : varchar 200 title = true := (Bool.and_eq_true_iff.mp htitle).2
  simp [StringsFit, row_fits, htitle', varchar_of_length hcourt, varchar_of_length hnumber]

theorem fit_create_event {credentials : Option Token} {case_id : Uuid}
    {body : CreateEventRequest} :
    Confined StringsFit (create_event srv env credentials case_id body) := by
  refine confined_bind fit_current_user fun account => ?_
  refine confined_bind fit_owned_case fun case => ?_
  refine confined_bind confined_require fun _ => ?_
  refine confined_bind (confined_insert ?_) fun _ => confined_bind fit_audit fun _ => every_pure _
  simp [StringsFit, row_fits]

theorem fit_create_note {credentials : Option Token} {case_id event_id : Uuid} {body : String} :
    Confined StringsFit (create_note srv env credentials case_id event_id body) := by
  refine confined_bind fit_current_user fun account => ?_
  refine confined_bind fit_owned_case fun case => ?_
  refine confined_bind (confined_bind (confined_select_one trivial) fun _ => confined_some_or)
    fun event => ?_
  refine confined_bind confined_require fun _ => ?_
  refine confined_bind (confined_insert ?_) fun _ => confined_bind fit_audit fun _ => every_pure _
  simp [StringsFit, row_fits]

theorem fit_register_complete {credentials : Option Token} {credential : Credential}
    {label : Option String} :
    Confined StringsFit (register_complete srv env credentials credential label) := by
  have hchallenge : Confined StringsFit (consume_challenge srv env credential) := by
    refine confined_bind confined_some_or fun presented => ?_
    refine confined_bind (confined_select_one trivial) fun found => ?_
    refine confined_bind confined_some_or fun record => ?_
    refine confined_bind confined_require fun _ => ?_
    exact confined_bind (confined_delete trivial) fun _ => confined_some_or
  refine confined_bind fit_current_user fun account => ?_
  refine confined_require_bind fun hlabel => ?_
  refine confined_bind hchallenge fun challenge => ?_
  refine confined_bind confined_verified fun registered => ?_
  refine confined_bind (confined_insert ?_) fun _ => every_pure _
  simp [StringsFit, row_fits, varchar_of_length hlabel]

/-! ### The guarantee -/

/-- The routes that write a string of the request's. -/
inductive WritesStrings : Route Token → Prop where
  | register (email password : String) (display_name : Option String) :
      WritesStrings (.register email password display_name)
  | create_case (title : String) (court case_number : Option String) :
      WritesStrings (.create_case title court case_number)
  | upload_document (case_id : Uuid) (upload : Upload) :
      WritesStrings (.upload_document case_id upload)
  | create_event (case_id : Uuid) (body : CreateEventRequest) :
      WritesStrings (.create_event case_id body)
  | create_note (case_id event_id : Uuid) (body : String) :
      WritesStrings (.create_note case_id event_id body)
  | register_complete (credential : Credential) (label : Option String) :
      WritesStrings (.register_complete credential label)

/-- The operations of a request, in order. -/
def issued (srv : Server Token) (env : Env) (req : Request Token) (w : Committed) :
    List (Op Row Patch Uuid Ext) :=
  (respond srv env req).performed (perform schema run_ext) (w.begin env)

/-- What the request writes fits, and is refused for a length in no database. -/
structure LengthsHold (srv : Server Token) (env : Env) (req : Request Token) (w : Committed) :
    Prop where
  fit : ∀ o ∈ issued srv env req w, StringsFit o
  admitted : ∀ statement, Op.write statement ∈ issued srv env req w →
    ∀ db, schema.check db statement ≠ some .data

/-- **Column widths.** What a request writes fits its columns, unless it registers an
    address that normalisation makes too long, or its upload gets as far as a document
    with too long a title. -/
theorem lengths_hold_iff (hsha : Sha256 srv) (hhash : ShortHashes srv)
    {C : History Token → Step Token → Prop} {h : History Token}
    (hr : Reaches srv C History.start h) {req : Request Token} (hroute : WritesStrings req.route) :
    LengthsHold srv env req h.world ↔ ¬ Overlong srv env h.world req := by
  constructor
  · intro hhold hlong
    -- an overlong value gets as far as its statement, and does not fit there
    cases hlong with
    | address credentials email password display_name long =>
      obtain ⟨address, haddress, hpassword, hname, hover⟩ := long
      obtain ⟨account, hemail, hmem⟩ :=
        @register_performs _ srv env (h.world.begin env) _ _ _ _ haddress hpassword hname
      have hfit := hhold.fit _ hmem
      simp [StringsFit, row_fits, varchar, hemail, hover] at hfit
    | title credentials case_id upload records long =>
      obtain ⟨document, htitle, hmem⟩ := upload_performs hr.consistent records
      have hfit := hhold.fit _ hmem
      simp [StringsFit, row_fits, varchar, htitle, long] at hfit
  · intro hshort
    -- six routes write strings; the address and the title are the ones no check has bounded
    have hfit : ∀ o ∈ issued srv env req h.world, StringsFit o := by
      obtain ⟨credentials, route⟩ := req
      cases hroute with
      | register email password display_name =>
        refine (fit_register hhash fun hlong => hshort ?_).performed
        exact .address credentials email password display_name hlong
      | create_case title court case_number => exact fit_create_case.performed
      | upload_document case_id upload =>
        refine fit_upload hsha fun hrecords => ?_
        by_contra hlong
        exact hshort (.title credentials case_id upload hrecords (Nat.not_le.mp hlong))
      | create_event case_id body => exact fit_create_event.performed
      | create_note case_id event_id body => exact fit_create_note.performed
      | register_complete credential label => exact fit_register_complete.performed
    exact ⟨hfit, fun statement hmem => (hfit _ hmem).admitted⟩

/-- Passwords are stored as digests. -/
def Sample.hashing_server : Server Payload :=
  { Sample.server with
    argon2_hash := fun _ password => Sample.digest (Sample.bytes_of password)
    argon2_verify := fun hash password => hash == Sample.digest (Sample.bytes_of password) }

theorem Sample.short_hashes : ShortHashes Sample.hashing_server := by
  intro salt password
  have hlen : (Sample.digest (Sample.bytes_of password)).length = 64 :=
    Sample.sha256_length (Sample.bytes_of password)
  show (Sample.digest (Sample.bytes_of password)).length ≤ 255
  omega

theorem first_registration_fits :
    LengthsHold Sample.hashing_server (Sample.env 1 (100 * second))
      ⟨none, .register "a@x.org" "correct horse" none⟩ Committed.empty := by
  have hreach : Reaches Sample.hashing_server (fun _ _ => True) .start .start := .refl
  have hsha : Sha256 Sample.hashing_server := fun data => Sample.sha256_length data
  refine (lengths_hold_iff hsha Sample.short_hashes hreach (.register _ _ _)).mpr ?_
  intro hlong
  cases hlong with
  | address _ _ _ _ long =>
    obtain ⟨address, haddress, _, _, hover⟩ := long
    cases haddress
    revert hover
    decide

theorem or_else_some {text default : String} (h : text.isEmpty = false) :
    or_else (some text) default = text := by
  simp [or_else, h]

/-- A PDF with a title of 301 characters. -/
def long_titled : Upload where
  data := pdf_magic ++ Sample.bytes_of "world"
  filename := none
  title := some (String.ofList (List.replicate 301 'a'))
  source := "upload"
  content_length := none

theorem long_titled_records : Records Sample.server (Sample.env 5 (104 * second))
    (Sample.bearer (101 * second)) first_case.id long_titled filed.world where
  stores := by
    refine ⟨first_account, first_account_signed_in, ⟨first_case, by decide +kernel, rfl, rfl⟩,
      ⟨?_, by decide, by decide⟩, rfl, by decide +kernel⟩
    intro n hn
    cases hn
  works := rfl
  readable := ⟨⟨[⟨1, "world"⟩]⟩, by decide +kernel⟩

/-- Validation lets the title through, the bytes are stored, and the column refuses it. -/
theorem long_title_aborts :
    Reaches Sample.server (fun _ _ => True) .start filed ∧
    ¬ LengthsHold Sample.server (Sample.env 5 (104 * second))
      ⟨Sample.bearer (101 * second), .upload_document first_case.id long_titled⟩ filed.world ∧
    let served := get_session (Sample.env 5 (104 * second)) (respond Sample.server
      (Sample.env 5 (104 * second))
      ⟨Sample.bearer (101 * second), .upload_document first_case.id long_titled⟩) filed.world
    served.1 = .error (.database .data) ∧
      (served.2.ext.store (upload_key Sample.server first_case.id long_titled)).isSome = true := by
  have hreach : Reaches Sample.server (fun _ _ => True) .start filed :=
    reaches_filed.mono fun _ _ _ => trivial
  refine ⟨hreach, fun hhold => ?_, by decide +kernel⟩
  obtain ⟨document, htitle, hmem⟩ := upload_performs hreach.consistent long_titled_records
  have hfit := hhold.fit _ hmem
  have hlong : 300 < (upload_title long_titled).length := by
    have hlength : (String.ofList (List.replicate 301 'a')).length = 301 := by
      rw [String.length_ofList, List.length_replicate]
    have hsome : (String.ofList (List.replicate 301 'a')).isEmpty = false := by
      rw [Bool.eq_false_iff]
      intro hempty
      rw [String.isEmpty_iff.mp hempty] at hlength
      cases hlength
    have htext : upload_title long_titled = String.ofList (List.replicate 301 'a') :=
      or_else_some hsome
    rw [htext, hlength]
    decide
  simp [StringsFit, row_fits, varchar, htitle, hlong] at hfit

end CounselReady
