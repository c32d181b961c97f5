import CounselReady.Api.Auth
import CounselReady.Api.Mfa
import CounselReady.Api.Passkeys
import CounselReady.Api.Events

/-! # The Application

    The routes of the app, the answer to one request, and runs of the server:
    requests and OCR jobs served one after another, each in a transaction of
    its own.
-/

namespace CounselReady

open Relational Framework

variable {Token : Type}

/-! ### Requests and answers -/

inductive Route (Token : Type) where
  | register (email password : String) (display_name : Option String)
  | login (email password : String)
  | refresh (refresh_token : String)
  | logout
  | me
  | logout_everywhere
  | delete_own_account (password : String) (mfa_code : Option String) (acknowledge : Bool)
  | mfa_status
  | mfa_setup
  | mfa_confirm (code : String)
  | mfa_verify (challenge_token : Token) (code : String)
  | mfa_disable (password code : String)
  | list_passkeys
  | register_begin
  | register_complete (credential : Credential) (label : Option String)
  | passkey_login_begin (email : String)
  | passkey_login_complete (credential : Credential)
  | delete_passkey (passkey_id : Uuid)
  | create_case (title : String) (court case_number : Option String)
  | list_cases
  | read_case (case_id : Uuid)
  | list_documents (case_id : Uuid)
  | read_document (case_id document_id : Uuid)
  | upload_document (case_id : Uuid) (upload : Upload)
  | list_events (case_id : Uuid)
  | create_event (case_id : Uuid) (body : CreateEventRequest)
  | create_note (case_id event_id : Uuid) (body : String)

/-- `credentials` is the bearer token, when the header carries one. -/
structure Request (Token : Type) where
  credentials : Option Token
  route : Route Token

def respond (srv : Server Token) (env : Env) (req : Request Token) : Handler (Reply Token) :=
  match req.route with
  | .register email password display_name => register srv env email password display_name
  | .login email password => login srv env email password
  | .refresh refresh_token => refresh srv env refresh_token
  | .logout => logout srv env req.credentials
  | .me => me srv env req.credentials
  | .logout_everywhere => logout_everywhere srv env req.credentials
  | .delete_own_account password mfa_code acknowledge =>
      delete_own_account srv env req.credentials password mfa_code acknowledge
  | .mfa_status => mfa_status srv env req.credentials
  | .mfa_setup => mfa_setup srv env req.credentials
  | .mfa_confirm code => mfa_confirm srv env req.credentials code
  | .mfa_verify challenge_token code => mfa_verify srv env challenge_token code
  | .mfa_disable password code => mfa_disable srv env req.credentials password code
  | .list_passkeys => list_passkeys srv env req.credentials
  | .register_begin => register_begin srv env req.credentials
  | .register_complete credential label =>
      register_complete srv env req.credentials credential label
  | .passkey_login_begin email => passkey_login_begin srv env email
  | .passkey_login_complete credential => passkey_login_complete srv env credential
  | .delete_passkey passkey_id => delete_passkey srv env req.credentials passkey_id
  | .create_case title court case_number =>
      create_case srv env req.credentials title court case_number
  | .list_cases => list_cases srv env req.credentials
  | .read_case case_id => read_case srv env req.credentials case_id
  | .list_documents case_id => list_documents srv env req.credentials case_id
  | .read_document case_id document_id => read_document srv env req.credentials case_id document_id
  | .upload_document case_id upload => upload_document srv env req.credentials case_id upload
  | .list_events case_id => list_events srv env req.credentials case_id
  | .create_event case_id body => create_event srv env req.credentials case_id body
  | .create_note case_id event_id body => create_note srv env req.credentials case_id event_id body

inductive Response (Token : Type) where
  | success (status : Nat) (reply : Reply Token)
  | refused (e : HttpError)
  | internal_server_error
  deriving DecidableEq

def Response.status : Response Token → Nat
  | .success status _ => status
  | .refused e => e.status
  | .internal_server_error => 500

/-- The `status_code` of the route's decorator. -/
def Route.success_status : Route Token → Nat
  | .register _ _ _ => 201
  | .logout => 204
  | .logout_everywhere => 204
  | .mfa_confirm _ => 204
  | .mfa_disable _ _ => 204
  | .register_complete _ _ => 201
  | .delete_passkey _ => 204
  | .create_case _ _ _ => 201
  | .upload_document _ _ => 201
  | .create_event _ _ => 201
  | .create_note _ _ _ => 201
  | _ => 200

def answer (route : Route Token) : Except Exc (Reply Token) → Response Token
  | .ok reply => .success route.success_status reply
  | .error (.http e) => .refused e
  | .error _ => .internal_server_error

/-- The answer of the handler, whatever becomes of its transaction. -/
def handler_response (srv : Server Token) (env : Env) (req : Request Token) (w : Committed) :
    Response Token :=
  answer req.route ((respond srv env req).exec (perform schema run_ext) (w.begin env)).1

/-- One request, from its arrival to its answer, with the COMMIT before the answer. That is
    FastAPI's order up to 0.117; from 0.118 on it sends the answer of the handler first
    (`sent`). A success here has been committed, and is what is sent in either order. -/
def serve (srv : Server Token) (env : Env) (req : Request Token) (w : Committed) :
    Response Token × Committed :=
  (answer req.route (get_session env (respond srv env req) w).1,
    (get_session env (respond srv env req) w).2)

/-- What the client is sent, in the order the deployment's FastAPI has. -/
def sent (answers_first : Bool) (srv : Server Token) (env : Env) (req : Request Token)
    (w : Committed) : Response Token :=
  if answers_first then handler_response srv env req w else (serve srv env req w).1

/-! ### Runs -/

/-- What the server does next: answer a request, or run OCR on a document. -/
inductive Step (Token : Type) where
  | request (env : Env) (req : Request Token)
  | ocr (env : Env) (document_id : Uuid) (engine : OcrEngine)

def Step.env : Step Token → Env
  | .request env _ => env
  | .ocr env _ _ => env

def Step.run (srv : Server Token) : Step Token → Committed → Committed
  | .request env req, w => (serve srv env req w).2
  | .ocr env document_id engine, w =>
      (get_session env (run_ocr_for_document document_id engine) w).2

/-- A run so far: its steps, latest first, each with the state it found, and the
    state reached. -/
structure History (Token : Type) where
  past : List (Step Token × Committed)
  world : Committed

def Committed.empty : Committed := ⟨fun _ => [], ⟨fun _ => none, [], []⟩⟩

def History.start : History Token := ⟨[], Committed.empty⟩

def History.next (srv : Server Token) (h : History Token) (s : Step Token) : History Token :=
  ⟨(s, h.world) :: h.past, s.run srv h.world⟩

/-- The states the run has been in. -/
def History.worlds (h : History Token) : List Committed := h.world :: h.past.map Prod.snd

/-- The runs from `h₀` whose steps all meet `C`. -/
inductive Reaches (srv : Server Token) (C : History Token → Step Token → Prop)
    (h₀ : History Token) : History Token → Prop where
  | refl : Reaches srv C h₀ h₀
  | step {h : History Token} (s : Step Token) : Reaches srv C h₀ h → C h s →
      Reaches srv C h₀ (h.next srv s)

/-- **Invariant rule.** What holds at the start, and is kept by every step that may be taken,
    holds of every history reached. -/
theorem Reaches.invariant {srv : Server Token} {C : History Token → Step Token → Prop}
    {h₀ h : History Token} {I : History Token → Prop} (hr : Reaches srv C h₀ h) (h0 : I h₀)
    (hstep : ∀ h s, Reaches srv C h₀ h → I h → C h s → I (h.next srv s)) : I h := by
  induction hr with
  | refl => exact h0
  | step s hr hC ih => exact hstep _ s hr ih hC

theorem Reaches.mono {srv : Server Token} {C C' : History Token → Step Token → Prop}
    {h₀ h : History Token} (hr : Reaches srv C h₀ h) (hC : ∀ h s, C h s → C' h s) :
    Reaches srv C' h₀ h := by
  induction hr with
  | refl => exact .refl
  | step s _ hs ih => exact .step s ih (hC _ _ hs)

theorem Reaches.trans {srv : Server Token} {C : History Token → Step Token → Prop}
    {h₀ h₁ h₂ : History Token} (h01 : Reaches srv C h₀ h₁) (h12 : Reaches srv C h₁ h₂) :
    Reaches srv C h₀ h₂ := by
  induction h12 with
  | refl => exact h01
  | step s _ hC ih => exact .step s ih hC

theorem History.world_mem_worlds (h : History Token) : h.world ∈ h.worlds := List.mem_cons_self

theorem Reaches.worlds_subset {srv : Server Token} {C : History Token → Step Token → Prop}
    {h₀ h : History Token} (hr : Reaches srv C h₀ h) : ∀ w ∈ h₀.worlds, w ∈ h.worlds := by
  induction hr with
  | refl => exact fun _ hw => hw
  | step s _ _ ih =>
    intro w hw
    exact List.mem_cons_of_mem _ (ih w hw)

/-! ### What a run may assume -/

/-- How many UUIDs one request can draw: a row for each page of the longest
    document, and three more. -/
def draws : Nat := default_max_pages + 3

/-- `uuid4` and `secrets` give values this run has not seen. -/
structure Fresh (srv : Server Token) (h : History Token) (env : Env) : Prop where
  distinct : ∀ i < draws, ∀ j < draws, env.uuid i = env.uuid j → i = j
  ids : ∀ w ∈ h.worlds, ∀ t, ∀ r ∈ w.db t, ∀ i, row_pk t r ≠ env.uuid i
  signed : ∀ p ∈ h.world.ext.signed, ∀ i, p.sid ≠ some (env.uuid i)
  session_digests : ∀ w ∈ h.worlds, ∀ s ∈ w.db .user_session,
    UserSession.refresh_digest s ≠ hash_refresh_token srv env.refresh_token
  used_digests : ∀ w ∈ h.worlds, ∀ u ∈ w.db .used_refresh_token,
    UsedRefreshToken.digest u ≠ hash_refresh_token srv env.refresh_token

/-- The signed tokens a request presents. -/
def Request.presented (req : Request Token) : List Token :=
  req.credentials.toList ++ match req.route with
    | .mfa_verify challenge_token _ => [challenge_token]
    | _ => []

/-- Nobody else holds the server's key: what verifies was signed by the server. -/
def Authentic (srv : Server Token) (h : History Token) (env : Env) (req : Request Token) : Prop :=
  ∀ token ∈ req.presented, ∀ p, srv.jwt_decode token env.now = some p →
    p ∈ h.world.ext.signed

/-- The step draws fresh values and presents no forged token. -/
def Honest (srv : Server Token) (h : History Token) : Step Token → Prop
  | .request env req => Fresh srv h env ∧ Authentic srv h env req
  | .ocr _ _ _ => True

/-- What `jwt.decode` checks besides the signature. -/
def Expires (srv : Server Token) : Prop :=
  ∀ token now p, srv.jwt_decode token now = some p → now < p.exp * second

end CounselReady
