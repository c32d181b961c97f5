import CounselReady.Framework.Integrity

/-! # The Case File Schema

    The tables of `app.models` and `app.jobs.models`, with the constraints the
    migrations declare: primary keys, unique indexes, column lengths, CHECK
    constraints and foreign keys with their `ON DELETE` actions.

    A row keeps the columns some function of the program reads or writes.
    Times are microseconds since the epoch.
-/

namespace CounselReady

open Relational

/-! ### Columns -/

/-- A UUID. `str` is its canonical text. -/
abbrev Uuid := BitVec 128

abbrev Bytes := List UInt8

inductive AuthEventType where
  | login_succeeded
  | login_failed
  deriving DecidableEq, Repr

inductive CaseAction where
  | case_created
  | case_read
  | case_list
  | document_uploaded
  | document_list
  | document_read
  | event_created
  | event_list
  | event_note_created
  deriving DecidableEq, Repr

inductive Jurisdiction where
  | florida
  deriving DecidableEq, Repr

inductive PartyRole where
  | petitioner
  | respondent
  | child
  | counsel
  | guardian_ad_litem
  | evaluator
  | judge
  | other
  deriving DecidableEq, Repr

inductive DocumentKind where
  | unclassified
  | petition
  | motion
  | response
  | order
  | notice
  | financial_affidavit
  | parenting_plan
  | evaluation
  | correspondence
  | exhibit
  | other
  deriving DecidableEq, Repr

inductive IngestSource where
  | upload
  | camera
  | email
  deriving DecidableEq, Repr

inductive OcrStatus where
  | pending
  | processing
  | needs_ocr
  | complete
  | failed
  deriving DecidableEq, Repr

inductive FactField where
  | case_number
  | court
  | judge
  | document_kind
  | filed_date
  | served_date
  | party_name
  | counsel_name
  | requested_relief
  | referenced_exhibit
  | referenced_date
  | monetary_amount
  deriving DecidableEq, Repr

inductive EventKind where
  | procedural
  | alleged
  deriving DecidableEq, Repr

inductive EventProvenance where
  | document_derived
  | user_asserted
  deriving DecidableEq, Repr

inductive DatePrecision where
  | exact
  | day
  | month
  | year
  deriving DecidableEq, Repr

inductive JobKind where
  | ocr_document
  deriving DecidableEq, Repr

inductive JobStatus where
  | queued
  | running
  | succeeded
  | failed
  deriving DecidableEq, Repr

/-- A float column: the finite values, and the three that are not numbers one
    can compare. -/
inductive Confidence where
  | finite (q : Rat)
  | infinite (negative : Bool)
  | nan
  deriving DecidableEq

/-- `>= 0 AND <= 1`. PostgreSQL sorts NaN above every number. -/
def Confidence.is_fraction : Confidence → Bool
  | .finite q => decide (0 ≤ q) && decide (q ≤ 1)
  | .infinite _ => false
  | .nan => false

/-! ### Rows -/

structure UserAccount where
  id : Uuid
  email : String
  display_name : Option String
  active : Bool
  password_hash : Option String
  deriving DecidableEq

structure UserSession where
  id : Uuid
  user_id : Uuid
  refresh_digest : String
  expires_at : Nat
  revoked_at : Option Nat
  last_used_at : Option Nat
  deriving DecidableEq

/-- A session that still opens doors. -/
def UserSession.is_active (s : UserSession) (now : Nat) : Bool :=
  s.revoked_at.isNone && decide (now < s.expires_at)

structure UsedRefreshToken where
  id : Uuid
  session_id : Uuid
  digest : String
  deriving DecidableEq

structure AuthEvent where
  id : Uuid
  created_at : Nat
  email : String
  user_id : Option Uuid
  event_type : AuthEventType
  deriving DecidableEq

structure CaseAuditEvent where
  id : Uuid
  actor_user_id : Option Uuid
  case_id : Option Uuid
  action : CaseAction
  detail : Option (List (String × Nat))
  deriving DecidableEq

structure Case where
  id : Uuid
  created_at : Nat
  owner_id : Uuid
  title : String
  jurisdiction : Jurisdiction
  court : Option String
  case_number : Option String
  deriving DecidableEq

structure Party where
  id : Uuid
  case_id : Uuid
  display_name : String
  role : PartyRole
  deriving DecidableEq

structure Document where
  id : Uuid
  created_at : Nat
  case_id : Uuid
  title : String
  kind : DocumentKind
  ingest_source : IngestSource
  storage_key : String
  content_hash : String
  filed_at : Option Int
  page_count : Int
  ocr_status : OcrStatus
  deriving DecidableEq

structure DocumentPage where
  id : Uuid
  document_id : Uuid
  page_number : Int
  text : String
  ocr_confidence : Option Confidence
  deriving DecidableEq

structure Passage where
  id : Uuid
  page_id : Uuid
  start_offset : Int
  end_offset : Int
  quote : String
  deriving DecidableEq

structure ExtractedFact where
  id : Uuid
  document_id : Uuid
  passage_id : Uuid
  field : FactField
  extractor_version : String
  confidence : Option Confidence
  deriving DecidableEq

structure CaseEvent where
  id : Uuid
  created_at : Nat
  case_id : Uuid
  kind : EventKind
  provenance : EventProvenance
  passage_id : Option Uuid
  recorded_by_user_id : Option Uuid
  occurred_at : Int
  date_precision : DatePrecision
  summary : String
  asserted_by_party_id : Option Uuid
  about_party_id : Option Uuid
  deriving DecidableEq

structure CaseEventNote where
  id : Uuid
  created_at : Nat
  event_id : Uuid
  author_user_id : Uuid
  body : String
  deriving DecidableEq

structure UserMfa where
  id : Uuid
  user_id : Uuid
  encrypted_secret : String
  confirmed_at : Option Nat
  last_used_counter : Option Int
  deriving DecidableEq

def UserMfa.is_active (m : UserMfa) : Bool := m.confirmed_at.isSome

structure RecoveryCode where
  id : Uuid
  user_id : Uuid
  digest : String
  used_at : Option Nat
  deriving DecidableEq

structure Passkey where
  id : Uuid
  user_id : Uuid
  credential_id : Bytes
  public_key : Bytes
  sign_count : Nat
  backed_up : Bool
  label : Option String
  last_used_at : Option Nat
  deriving DecidableEq

structure PasskeyChallenge where
  id : Uuid
  user_id : Option Uuid
  challenge : String
  expires_at : Nat
  deriving DecidableEq

/-- `payload` is the one field it ever has: `document_id`, as text. -/
structure Job where
  id : Uuid
  kind : JobKind
  status : JobStatus
  payload : String
  attempts : Nat
  run_after : Nat
  last_error : Option String
  deriving DecidableEq

/-! ### Tables -/

inductive Table where
  | user_account
  | user_session
  | used_refresh_token
  | auth_event
  | case_
  | case_audit_event
  | party
  | document
  | document_page
  | passage
  | extracted_fact
  | case_event
  | case_event_note
  | user_mfa
  | recovery_code
  | passkey
  | passkey_challenge
  | job
  deriving DecidableEq, Repr

abbrev Row : Table → Type
  | .user_account => UserAccount
  | .user_session => UserSession
  | .used_refresh_token => UsedRefreshToken
  | .auth_event => AuthEvent
  | .case_ => Case
  | .case_audit_event => CaseAuditEvent
  | .party => Party
  | .document => Document
  | .document_page => DocumentPage
  | .passage => Passage
  | .extracted_fact => ExtractedFact
  | .case_event => CaseEvent
  | .case_event_note => CaseEventNote
  | .user_mfa => UserMfa
  | .recovery_code => RecoveryCode
  | .passkey => Passkey
  | .passkey_challenge => PasskeyChallenge
  | .job => Job

/-! ### The UPDATEs the program issues

    The ORM writes the columns whose value was changed, and only those. -/

inductive AccountPatch where
  | rehash (password_hash : String)
  deriving DecidableEq

inductive SessionPatch where
  | revoke (now : Nat)
  | rotate (digest : String) (now : Nat)
  deriving DecidableEq

inductive MfaPatch where
  /-- `last_used_counter` is written when it was set -/
  | restart (encrypted_secret : String) (clears : Bool)
  | confirm (now : Nat) (step : Int)
  | consume (step : Int)
  deriving DecidableEq

inductive RecoveryPatch where
  | use (now : Nat)
  deriving DecidableEq

inductive PasskeyPatch where
  /-- `sign_count` is written when it changed -/
  | used (sign_count : Option Nat) (now : Nat)
  deriving DecidableEq

inductive DocumentPatch where
  | set_ocr_status (status : OcrStatus)
  deriving DecidableEq

inductive PagePatch where
  | fill (text : String) (confidence : Confidence)
  deriving DecidableEq

inductive JobPatch where
  | claim
  | succeed
  | give_up (error : String)
  | requeue (error : String) (run_after : Nat)
  deriving DecidableEq

abbrev Patch : Table → Type
  | .user_account => AccountPatch
  | .user_session => SessionPatch
  | .user_mfa => MfaPatch
  | .recovery_code => RecoveryPatch
  | .passkey => PasskeyPatch
  | .document => DocumentPatch
  | .document_page => PagePatch
  | .job => JobPatch
  | _ => Empty

def AccountPatch.apply : AccountPatch → UserAccount → UserAccount
  | .rehash h, a => { a with password_hash := some h }

def SessionPatch.apply : SessionPatch → UserSession → UserSession
  | .revoke now, s => { s with revoked_at := some now }
  | .rotate digest now, s => { s with refresh_digest := digest, last_used_at := some now }

def MfaPatch.apply : MfaPatch → UserMfa → UserMfa
  | .restart secret clears, m => { m with
      encrypted_secret := secret
      last_used_counter := if clears then none else m.last_used_counter }
  | .confirm now step, m => { m with confirmed_at := some now, last_used_counter := some step }
  | .consume step, m => { m with last_used_counter := some step }

def RecoveryPatch.apply : RecoveryPatch → RecoveryCode → RecoveryCode
  | .use now, c => { c with used_at := some now }

def PasskeyPatch.apply : PasskeyPatch → Passkey → Passkey
  | .used count now, p =>
      { p with sign_count := count.getD p.sign_count, last_used_at := some now }

def DocumentPatch.apply : DocumentPatch → Document → Document
  | .set_ocr_status s, d => { d with ocr_status := s }

def PagePatch.apply : PagePatch → DocumentPage → DocumentPage
  | .fill text conf, p => { p with text := text, ocr_confidence := some conf }

def JobPatch.apply : JobPatch → Job → Job
  | .claim, j => { j with status := .running, attempts := j.attempts + 1 }
  | .succeed, j => { j with status := .succeeded, last_error := none }
  | .give_up error, j => { j with status := .failed, last_error := some error }
  | .requeue error run_after, j =>
      { j with status := .queued, last_error := some error, run_after := run_after }

/-! ### Constraints -/

def row_pk : (t : Table) → Row t → Uuid
  | .user_account, r => UserAccount.id r
  | .user_session, r => UserSession.id r
  | .used_refresh_token, r => UsedRefreshToken.id r
  | .auth_event, r => AuthEvent.id r
  | .case_, r => Case.id r
  | .case_audit_event, r => CaseAuditEvent.id r
  | .party, r => Party.id r
  | .document, r => Document.id r
  | .document_page, r => DocumentPage.id r
  | .passage, r => Passage.id r
  | .extracted_fact, r => ExtractedFact.id r
  | .case_event, r => CaseEvent.id r
  | .case_event_note, r => CaseEventNote.id r
  | .user_mfa, r => UserMfa.id r
  | .recovery_code, r => RecoveryCode.id r
  | .passkey, r => Passkey.id r
  | .passkey_challenge, r => PasskeyChallenge.id r
  | .job, r => Job.id r

def row_apply : (t : Table) → Patch t → Row t → Row t
  | .user_account, p, r => AccountPatch.apply p r
  | .user_session, p, r => SessionPatch.apply p r
  | .user_mfa, p, r => MfaPatch.apply p r
  | .recovery_code, p, r => RecoveryPatch.apply p r
  | .passkey, p, r => PasskeyPatch.apply p r
  | .document, p, r => DocumentPatch.apply p r
  | .document_page, p, r => PagePatch.apply p r
  | .job, p, r => JobPatch.apply p r
  | .used_refresh_token, p, _ => p.elim
  | .auth_event, p, _ => p.elim
  | .case_, p, _ => p.elim
  | .case_audit_event, p, _ => p.elim
  | .party, p, _ => p.elim
  | .passage, p, _ => p.elim
  | .extracted_fact, p, _ => p.elim
  | .case_event, p, _ => p.elim
  | .case_event_note, p, _ => p.elim
  | .passkey_challenge, p, _ => p.elim

/-- The unique indexes. -/
def row_clash : (t : Table) → Row t → Row t → Bool
  | .user_account, (a : UserAccount), (b : UserAccount) => a.email == b.email
  | .user_session, (a : UserSession), (b : UserSession) => a.refresh_digest == b.refresh_digest
  | .used_refresh_token, (a : UsedRefreshToken), (b : UsedRefreshToken) => a.digest == b.digest
  | .party, (a : Party), (b : Party) =>
      a.case_id == b.case_id && a.display_name == b.display_name && a.role == b.role
  | .document, (a : Document), (b : Document) =>
      a.case_id == b.case_id && a.content_hash == b.content_hash
  | .document_page, (a : DocumentPage), (b : DocumentPage) =>
      a.document_id == b.document_id && a.page_number == b.page_number
  | .extracted_fact, (a : ExtractedFact), (b : ExtractedFact) =>
      a.passage_id == b.passage_id && a.field == b.field &&
        a.extractor_version == b.extractor_version
  | .user_mfa, (a : UserMfa), (b : UserMfa) => a.user_id == b.user_id
  | .recovery_code, (a : RecoveryCode), (b : RecoveryCode) =>
      a.user_id == b.user_id && a.digest == b.digest
  | .passkey, (a : Passkey), (b : Passkey) => a.credential_id == b.credential_id
  | .passkey_challenge, (a : PasskeyChallenge), (b : PasskeyChallenge) =>
      a.challenge == b.challenge
  | _, _, _ => false

/-- Lengths, texts and CHECK constraints; which of them is reported first makes no
    difference to the program. -/
def columns (lengths texts checks : Bool) : Option Violation :=
  if !lengths then some .data
  else if !texts then some .encoding
  else if checks then none else some .integrity

theorem columns_none {lengths texts checks : Bool} :
    columns lengths texts checks = none ↔ lengths = true ∧ texts = true ∧ checks = true := by
  unfold columns
  cases lengths <;> cases texts <;> cases checks <;> decide

/-- `VARCHAR(n)`. A value is too long also when what is over is blank, which PostgreSQL
    would cut off. -/
def varchar (n : Nat) (s : String) : Bool := decide (s.length ≤ n)

def varchar_null (n : Nat) (s : Option String) : Bool := s.all (varchar n)

/-- PostgreSQL has no U+0000 in a text. Asked of what people and files say: what the program
    makes itself (keys, digests) has none, nor has an address that `EmailStr` admits. -/
def storable (s : String) : Bool := s.toList.all (fun c => c.toNat != 0)

def storable_null (s : Option String) : Bool := s.all storable

/-- `documentary_events_cite_a_passage` and `asserted_events_name_their_author`. -/
def CaseEvent.provenance_holds (e : CaseEvent) : Bool :=
  match e.provenance with
  | .document_derived => e.passage_id.isSome && e.recorded_by_user_id.isNone
  | .user_asserted => e.passage_id.isNone && e.recorded_by_user_id.isSome

def row_fits : (t : Table) → Row t → Option Violation
  | .user_account, (r : UserAccount) =>
      columns (varchar 320 r.email && varchar_null 200 r.display_name &&
        varchar_null 255 r.password_hash) (storable_null r.display_name) true
  | .user_session, (r : UserSession) => columns (varchar 64 r.refresh_digest) true true
  | .used_refresh_token, (r : UsedRefreshToken) => columns (varchar 64 r.digest) true true
  | .auth_event, (r : AuthEvent) => columns (varchar 320 r.email) true true
  | .case_, (r : Case) =>
      columns (varchar 200 r.title && varchar_null 200 r.court && varchar_null 100 r.case_number)
        (storable r.title && storable_null r.court && storable_null r.case_number) true
  | .case_audit_event, _ => none
  | .party, (r : Party) => columns (varchar 200 r.display_name) (storable r.display_name) true
  | .document, (r : Document) =>
      columns (varchar 300 r.title && varchar 500 r.storage_key && varchar 64 r.content_hash)
        (storable r.title) (decide (0 ≤ r.page_count))
  | .document_page, (r : DocumentPage) =>
      columns true (storable r.text)
        (decide (1 ≤ r.page_number) && r.ocr_confidence.all Confidence.is_fraction)
  | .passage, (r : Passage) =>
      columns true (storable r.quote)
        (decide (0 ≤ r.start_offset) && decide (r.start_offset < r.end_offset))
  | .extracted_fact, (r : ExtractedFact) =>
      columns (varchar 100 r.extractor_version) true (r.confidence.all Confidence.is_fraction)
  | .case_event, (r : CaseEvent) => columns true (storable r.summary) r.provenance_holds
  | .case_event_note, (r : CaseEventNote) => columns true (storable r.body) true
  | .user_mfa, (r : UserMfa) => columns (varchar 500 r.encrypted_secret) true true
  | .recovery_code, (r : RecoveryCode) => columns (varchar 64 r.digest) true true
  | .passkey, (r : Passkey) => columns (varchar_null 120 r.label) (storable_null r.label) true
  | .passkey_challenge, (r : PasskeyChallenge) => columns (varchar 128 r.challenge) true true
  | .job, (r : Job) => columns (varchar_null 120 r.last_error) true true

/-- A NOT NULL foreign key, `ON DELETE CASCADE`. -/
def belongs {t : Table} (target : Table) (column : Row t → Uuid) : ForeignKey Row Uuid t :=
  ⟨fun r => some (column r), target, .cascade⟩

def row_keys : (t : Table) → List (ForeignKey Row Uuid t)
  | .user_account => []
  | .user_session => [belongs .user_account UserSession.user_id]
  | .used_refresh_token => [belongs .user_session UsedRefreshToken.session_id]
  | .auth_event =>
      [⟨AuthEvent.user_id, .user_account,
        .set_null (fun (r : AuthEvent) => { r with user_id := none })⟩]
  | .case_ => [belongs .user_account Case.owner_id]
  | .case_audit_event =>
      [⟨CaseAuditEvent.actor_user_id, .user_account,
        .set_null (fun (r : CaseAuditEvent) => { r with actor_user_id := none })⟩,
       ⟨CaseAuditEvent.case_id, .case_,
        .set_null (fun (r : CaseAuditEvent) => { r with case_id := none })⟩]
  | .party => [belongs .case_ Party.case_id]
  | .document => [belongs .case_ Document.case_id]
  | .document_page => [belongs .document DocumentPage.document_id]
  | .passage => [belongs .document_page Passage.page_id]
  | .extracted_fact =>
      [belongs .document ExtractedFact.document_id, belongs .passage ExtractedFact.passage_id]
  | .case_event =>
      [belongs .case_ CaseEvent.case_id,
       ⟨CaseEvent.passage_id, .passage, .cascade⟩,
       ⟨CaseEvent.recorded_by_user_id, .user_account, .cascade⟩,
       ⟨CaseEvent.asserted_by_party_id, .party,
        .set_null (fun (r : CaseEvent) => { r with asserted_by_party_id := none })⟩,
       ⟨CaseEvent.about_party_id, .party,
        .set_null (fun (r : CaseEvent) => { r with about_party_id := none })⟩]
  | .case_event_note =>
      [belongs .case_event CaseEventNote.event_id,
       belongs .user_account CaseEventNote.author_user_id]
  | .user_mfa => [belongs .user_account UserMfa.user_id]
  | .recovery_code => [belongs .user_account RecoveryCode.user_id]
  | .passkey => [belongs .user_account Passkey.user_id]
  | .passkey_challenge => [⟨PasskeyChallenge.user_id, .user_account, .cascade⟩]
  | .job => []

/-- Parents before children. -/
def table_order : List Table :=
  [.user_account, .user_session, .used_refresh_token, .auth_event, .case_, .case_audit_event,
   .party, .document, .document_page, .passage, .extracted_fact, .case_event, .case_event_note,
   .user_mfa, .recovery_code, .passkey, .passkey_challenge, .job]

def schema : Schema Table Row Patch Uuid where
  pk := row_pk
  apply := row_apply
  clash := row_clash
  fits := row_fits
  keys := row_keys
  order := table_order
  pk_apply := by
    intro t p r
    cases t <;> first | exact p.elim | (cases p <;> rfl)
  pk_clear := by
    intro t k hk clear hclear r
    cases t <;> simp only [row_keys, List.not_mem_nil, List.mem_cons, or_false] at hk
    all_goals first
      | (subst hk; cases hclear; rfl)
      | (rcases hk with rfl | rfl <;> cases hclear <;> rfl)
      | (rcases hk with rfl | rfl | rfl | rfl | rfl <;> cases hclear <;> rfl)

/-! ### The schema is well declared -/

theorem schema_stratified : schema.Stratified := by
  intro pre t post hord k hk hc
  have hlt : ∀ t, ∀ k ∈ row_keys t, k.cascades = true →
      table_order.idxOf k.target < table_order.idxOf t := by
    intro t k hk hc
    cases t <;> simp only [row_keys, List.not_mem_nil, List.mem_cons, or_false] at hk
    all_goals first
      | (subst hk; decide)
      | (rcases hk with rfl | rfl <;> decide)
      | (rcases hk with rfl | rfl | rfl | rfl | rfl <;> decide)
  have hidx := hlt t k hk hc
  have hnodup : (pre ++ t :: post).Nodup := by
    rw [← hord]
    decide
  have hord' : table_order = pre ++ t :: post := hord
  rw [hord'] at hidx
  intro hmem
  -- a table at or after `t` has no smaller index
  have hpre : ∀ x ∈ t :: post, x ∉ pre := by
    intro x hx hxpre
    exact (List.nodup_append.mp hnodup).2.2 x hxpre x hx rfl
  rw [List.idxOf_append_of_notMem (hpre _ hmem),
    List.idxOf_append_of_notMem (hpre t List.mem_cons_self), List.idxOf_cons_self] at hidx
  omega

theorem schema_regular : schema.Regular where
  stratified := schema_stratified
  ordered := by
    intro t
    cases t <;> decide
  clash_comm := by
    intro t a b
    cases t <;> simp only [schema, row_clash] <;> grind
  apply_column := by
    intro t p r k hk
    -- no patch writes a column that is a foreign key
    cases t <;> first
      | exact p.elim
      | (obtain rfl := List.mem_singleton.mp hk; cases p <;> rfl)
      | cases hk
  clear_self := by
    intro t k hk clear hclear r
    cases t <;> simp only [schema, row_keys, List.not_mem_nil, List.mem_cons, or_false] at hk
    all_goals first
      | (subst hk; cases hclear; rfl)
      | (rcases hk with rfl | rfl <;> cases hclear <;> rfl)
      | (rcases hk with rfl | rfl | rfl | rfl | rfl <;> cases hclear <;> rfl)
  clear_other := by
    intro t k hk clear hclear k' hk' r
    cases t <;> simp only [schema, row_keys, List.not_mem_nil, List.mem_cons, or_false] at hk hk'
    all_goals first
      | (subst hk; cases hclear; subst hk'; exact .inr rfl)
      | (rcases hk with rfl | rfl <;> cases hclear <;> rcases hk' with rfl | rfl <;>
          first | exact .inl rfl | exact .inr rfl)
      | (rcases hk with rfl | rfl | rfl | rfl | rfl <;> cases hclear <;>
          rcases hk' with rfl | rfl | rfl | rfl | rfl <;>
          first | exact .inl rfl | exact .inr rfl)
  clear_clash := by
    intro t k hk clear hclear a b
    cases t <;> simp only [schema, row_keys, List.not_mem_nil, List.mem_cons, or_false] at hk
    all_goals first
      | (subst hk; cases hclear; rfl)
      | (rcases hk with rfl | rfl <;> cases hclear <;> rfl)
      | (rcases hk with rfl | rfl | rfl | rfl | rfl <;> cases hclear <;> rfl)

theorem schema_clearable : schema.Clearable := by
  intro t k hk clear hclear r hfits
  cases t <;> simp only [schema, row_keys, List.not_mem_nil, List.mem_cons, or_false] at hk
  all_goals first
    | (subst hk; cases hclear; exact hfits)
    | (rcases hk with rfl | rfl <;> cases hclear <;> exact hfits)
    | (rcases hk with rfl | rfl | rfl | rfl | rfl <;> cases hclear <;> exact hfits)

/-- The tables whose rows are changed by nothing but UPDATEs and deletes. -/
theorem rigid {t : Table} (h : t ≠ .auth_event ∧ t ≠ .case_audit_event ∧ t ≠ .case_event) :
    schema.Rigid t := by
  apply Schema.rigid_of_cascades
  intro k hk
  obtain ⟨h1, h2, h3⟩ := h
  cases t <;> simp only [schema, row_keys, List.not_mem_nil, List.mem_cons, or_false] at hk
  all_goals first
    | contradiction
    | (subst hk; rfl)
    | (rcases hk with rfl | rfl <;> rfl)

end CounselReady
