import CounselReady.Auth.Service

/-! # Request Dependencies

    `app.api.deps`: the gate every account route sits behind, and the shapes of
    the answers.
-/

namespace CounselReady

open Relational Framework Handler

variable {Token : Type}

/-! ### Answers -/

structure AccountResponse where
  id : Uuid
  email : String
  display_name : Option String
  deriving DecidableEq

structure PasskeyResponse where
  id : Uuid
  label : Option String
  backed_up : Bool
  last_used_at : Option Nat
  deriving DecidableEq

structure RegistrationOptions where
  party : RelyingParty
  user_id : Uuid
  user_name : String
  user_display_name : String
  challenge : Bytes
  exclude_credentials : List Bytes
  deriving DecidableEq

structure AuthenticationOptions where
  rp_id : String
  challenge : Bytes
  allow_credentials : List Bytes
  deriving DecidableEq

structure CaseResponse where
  id : Uuid
  title : String
  jurisdiction : Jurisdiction
  court : Option String
  case_number : Option String
  deriving DecidableEq

structure DocumentResponse where
  id : Uuid
  title : String
  kind : DocumentKind
  page_count : Int
  ocr_status : OcrStatus
  filed_at : Option Int
  deriving DecidableEq

structure PassageResponse where
  id : Uuid
  start_offset : Int
  end_offset : Int
  quote : String
  deriving DecidableEq

structure PageResponse where
  page_number : Int
  text : String
  ocr_confidence : Option Confidence
  passages : List PassageResponse
  deriving DecidableEq

structure NoteResponse where
  id : Uuid
  body : String
  created_at : Nat
  deriving DecidableEq

structure CitationResponse where
  document_id : Uuid
  document_title : String
  page_number : Int
  quote : String
  deriving DecidableEq

structure EventResponse where
  id : Uuid
  kind : EventKind
  provenance : EventProvenance
  occurred_at : Int
  date_precision : DatePrecision
  summary : String
  citation : Option CitationResponse
  notes : List NoteResponse
  deriving DecidableEq

/-- The body of a successful answer. -/
inductive Reply (Token : Type) where
  | empty
  | account (a : AccountResponse)
  | tokens (access_token : Token) (refresh_token : String)
  | mfa_challenge (challenge_token : Token)
  | deletion (cases_deleted documents_deleted objects_removed : Nat)
  | mfa_status (enabled : Bool) (recovery_codes_remaining : Nat)
  | mfa_setup (provisioning_uri : String) (recovery_codes : List String)
  | passkeys (ps : List PasskeyResponse)
  | registration_options (o : RegistrationOptions)
  | authentication_options (o : AuthenticationOptions)
  | case_ (c : CaseResponse)
  | cases (cs : List CaseResponse)
  | document (d : DocumentResponse)
  | documents (ds : List DocumentResponse)
  | document_detail (d : DocumentResponse) (pages : List PageResponse)
  | event (e : EventResponse)
  | events (es : List EventResponse)
  | note (n : NoteResponse)
  deriving DecidableEq

def tokens (issued : IssuedSession Token) : Reply Token :=
  .tokens issued.access_token issued.refresh_token

/-! ### Validation -/

/-- `Field(min_length=.., max_length=..)`. -/
def length_within (low high : Nat) (s : String) : Bool :=
  decide (low ≤ s.length) && decide (s.length ≤ high)

/-- An optional field with a `max_length`. -/
def length_at_most (high : Nat) (s : Option String) : Bool := s.all (length_within 0 high)

/-- `a or b` on strings. -/
def or_else (a : Option String) (b : String) : String :=
  match a with
  | none => b
  | some s => if s.isEmpty then b else s

/-! ### The gate -/

def unauthenticated : Exc :=
  .http ⟨401, .text "Not authenticated", [("WWW-Authenticate", "Bearer")]⟩

structure Authenticated where
  account : UserAccount
  session_id : Uuid

/-- The signed-in account, or one and the same 401. -/
def authenticated (srv : Server Token) (env : Env) (credentials : Option Token) :
    Handler Authenticated := do
  let token ← some_or credentials unauthenticated
  let claims ← some_or (decode_access_token srv token env.now) unauthenticated
  let live ← load_active_session env claims.session_id
  require live.isSome unauthenticated
  let account ← some_or (← select_one .user_account (fun a : UserAccount =>
    a.id == claims.user_id)) unauthenticated
  require account.active unauthenticated
  pure ⟨account, claims.session_id⟩

def current_user (srv : Server Token) (env : Env) (credentials : Option Token) :
    Handler UserAccount := do
  let auth ← authenticated srv env credentials
  pure auth.account

end CounselReady
