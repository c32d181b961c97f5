import CounselReady.App
import CounselReady.Framework.Json

/-! # Request Logging

    `app.core.logging`: the formatter, and the middleware around the whole
    application, which writes one line for each request, failures included.
    Times are in thousandths of a millisecond.
-/

namespace CounselReady

open Framework

variable {Token : Type}

/-! ### What the middleware sees -/

/-- The names of the headers are in lower case, as ASGI has them. -/
abbrev Headers := List (String × String)

structure HttpRequest where
  method : String
  headers : Headers

structure HttpResponse where
  status : Nat
  headers : Headers

/-- What `call_next` does: the path of the route that has matched, if one has, and the
    response. Without a response, an exception goes through. -/
structure Downstream where
  route : Option String
  response : Option HttpResponse

def Headers.get (headers : Headers) (key : String) : Option String :=
  (headers.find? (fun h => h.1 == key)).map Prod.snd

/-- `headers[key] = value`: the first header of that name is replaced, and others dropped. -/
def Headers.set (key value : String) : Headers → Headers
  | [] => [(key, value)]
  | h :: rest =>
      if h.1 == key then (key, value) :: rest.filter (fun h => h.1 != key)
      else h :: Headers.set key value rest

def request_id_header : String := "x-request-id"

def unmatched_route : String := "__unmatched__"

/-! ### The formatter -/

structure LogRecord where
  levelname : String
  name : String
  message : String
  context : Option Json.Members

/-- `payload.update(extra)`. -/
def update_payload (payload extra : Json.Members) : Json.Members :=
  payload.filter (fun m => extra.all fun e => e.1 != m.1) ++ extra

/-- `JsonFormatter.format`. -/
def LogRecord.format (record : LogRecord) : List Char :=
  let payload : Json.Members := [("level", .text record.levelname), ("logger", .text record.name),
    ("event", .text record.message)]
  let payload := match record.context with
    | some extra => update_payload payload extra
    | none => payload
  Json.dumps (Handler.order_by (fun a b => decide (a.1 ≤ b.1)) payload)

/-- `repr` of a number of thousandths, as long as that is written without an exponent. -/
def float_repr (thousandths : Nat) : String :=
  let digits := [thousandths / 100 % 10, thousandths / 10 % 10, thousandths % 10]
  let shown := if thousandths % 100 = 0 then digits.take 1
    else if thousandths % 10 = 0 then digits.take 2 else digits
  String.ofList (Nat.toDigits 10 (thousandths / 1000) ++ '.' :: shown.map Nat.digitChar)

/-! ### The middleware -/

/-- `uuid4().hex`. -/
def Uuid.hex (u : Uuid) : String := String.ofList (hex_digits 32 (BitVec.toNat u))

def request_id (drawn : Uuid) (request : HttpRequest) : String :=
  or_else (request.headers.get request_id_header) (Uuid.hex drawn)

def route_template (downstream : Downstream) : String := downstream.route.getD unmatched_route

/-- `RequestLoggingMiddleware._log`. -/
def log_record (request : HttpRequest) (request_id route : String) (status duration : Nat) :
    LogRecord where
  levelname := "INFO"
  name := "counselready.request"
  message := "http_request"
  context := some [("request_id", .text request_id), ("method", .text request.method),
    ("route", .text route), ("status", .number (Nat.repr status)),
    ("duration_ms", .number (float_repr duration))]

/-- `RequestLoggingMiddleware.dispatch`: the line, and the response if there is one. -/
def dispatch (drawn : Uuid) (duration : Nat) (request : HttpRequest) (downstream : Downstream) :
    LogRecord × Option HttpResponse :=
  let id := request_id drawn request
  let route := route_template downstream
  match downstream.response with
  -- the exception goes on, and the line says 500
  | none => (log_record request id route 500 duration, none)
  | some response =>
      (log_record request id route response.status duration,
        some { response with headers := response.headers.set request_id_header id })

/-! ### The application behind it -/

/-- The path of the route's decorator, behind the prefix of its router. -/
def Route.path : Route Token → String
  | .register _ _ _ => "/auth/register"
  | .login _ _ => "/auth/login"
  | .refresh _ => "/auth/refresh"
  | .logout => "/auth/logout"
  | .me => "/auth/me"
  | .logout_everywhere => "/auth/logout-all"
  | .delete_own_account _ _ _ => "/auth/me/delete"
  | .mfa_status => "/auth/mfa/status"
  | .mfa_setup => "/auth/mfa/setup"
  | .mfa_confirm _ => "/auth/mfa/confirm"
  | .mfa_verify _ _ => "/auth/mfa/verify"
  | .mfa_disable _ _ => "/auth/mfa/disable"
  | .list_passkeys => "/auth/passkeys"
  | .register_begin => "/auth/passkeys/register/begin"
  | .register_complete _ _ => "/auth/passkeys/register/complete"
  | .passkey_login_begin _ => "/auth/passkeys/login/begin"
  | .passkey_login_complete _ => "/auth/passkeys/login/complete"
  | .delete_passkey _ => "/auth/passkeys/\x7bpasskey_id\x7d"
  | .create_case _ _ _ => "/cases"
  | .list_cases => "/cases"
  | .read_case _ => "/cases/\x7bcase_id\x7d"
  | .list_documents _ => "/cases/\x7bcase_id\x7d/documents"
  | .read_document _ _ => "/cases/\x7bcase_id\x7d/documents/\x7bdocument_id\x7d"
  | .upload_document _ _ => "/cases/\x7bcase_id\x7d/documents"
  | .list_events _ => "/cases/\x7bcase_id\x7d/events"
  | .create_event _ _ => "/cases/\x7bcase_id\x7d/events"
  | .create_note _ _ _ => "/cases/\x7bcase_id\x7d/events/\x7bevent_id\x7d/notes"

/-- An exception that no handler answers goes through the middleware. -/
def Response.http : Response Token → Option HttpResponse
  | .success status _ => some ⟨status, []⟩
  | .refused e => some ⟨e.status, e.headers.map fun h => (h.1.toLower, h.2)⟩
  | .internal_server_error => none

/-- One exchange: the request with what the middleware draws and measures, and the call it
    is to a route of the application; without one, the router answers for itself. -/
structure HttpExchange (Token : Type) where
  request : HttpRequest
  drawn : Uuid
  duration : Nat
  env : Env
  call : Request Token ⊕ Downstream

def HttpExchange.downstream (srv : Server Token) (x : HttpExchange Token) (w : Committed) :
    Downstream × Committed :=
  match x.call with
  | .inl req =>
      (⟨some req.route.path, (serve srv x.env req w).1.http⟩, (serve srv x.env req w).2)
  | .inr other => (other, w)

/-- The exchanges of a run, each with the state it finds. -/
def served (srv : Server Token) :
    List (HttpExchange Token) → Committed → List (HttpExchange Token × Committed)
  | [], _ => []
  | x :: later, w => (x, w) :: served srv later (x.downstream srv w).2

def HttpExchange.dispatched (srv : Server Token) (x : HttpExchange Token) (w : Committed) :
    LogRecord × Option HttpResponse :=
  dispatch x.drawn x.duration x.request (x.downstream srv w).1

/-- What the handler of the root logger has written: each record, and a line break. -/
def request_log (srv : Server Token) (run : List (HttpExchange Token × Committed)) : List Char :=
  run.flatMap fun p => (p.1.dispatched srv p.2).1.format ++ ['\n']

end CounselReady
