import CounselReady.Schema
import Mathlib.Algebra.Group.Nat.Defs

/-! # What the Program Calls and Does Not Define

    The third-party packages (PyJWT, argon2, cryptography, pyotp, webauthn,
    pypdf, email-validator), SHA-256, and the Unicode tables behind `str`.
    They are one parameter, `Vendor`; the facts a proof needs about them are
    named hypotheses.
-/

namespace CounselReady

/-! ### Signed tokens -/

inductive TokenType where
  | access
  | mfa_challenge
  deriving DecidableEq, Repr

/-- The claims the server signs. `iat` and `exp` are whole seconds. -/
structure Payload where
  sub : Uuid
  sid : Option Uuid
  iat : Nat
  exp : Nat
  typ : TokenType
  deriving DecidableEq

/-! ### pypdf -/

inductive PdfError where
  | py_pdf
  | value_error
  | key_error
  | not_implemented
  | other
  deriving DecidableEq, Repr

/-- An open reader: everything `extract_text_layer` asks of it. -/
structure PdfReader where
  is_encrypted : Bool
  decrypt : Except PdfError Bool
  page_count : Except PdfError Nat
  extract_text : Nat → Except PdfError (Option String)

/-! ### WebAuthn -/

/-- A credential as the browser sent it. `challenge` is what decoding its
    `clientDataJSON` yields, `none` when that fails; `id` is the text under
    `"id"`; `json` is the whole of it. -/
structure Credential where
  challenge : Option String
  id : Option String
  json : String
  deriving DecidableEq

structure RelyingParty where
  rp_id : String
  name : String
  origin : String
  deriving DecidableEq

/-- What a verification raises. -/
inductive WebauthnError where
  /-- `InvalidRegistrationResponse`, `InvalidAuthenticationResponse`, a `ValueError` or a
      `KeyError` -/
  | refused
  | other
  deriving DecidableEq, Repr

structure RegisteredPasskey where
  credential_id : Bytes
  public_key : Bytes
  sign_count : Nat
  backed_up : Bool
  deriving DecidableEq

/-! ### The parameter -/

structure Vendor (Token : Type) where
  /-- `jwt.encode`, under the server's key -/
  jwt_encode : Payload → Token
  /-- `jwt.decode` at a time: signature, `exp` and `iat` -/
  jwt_decode : Token → Nat → Option Payload
  token_length : Token → Nat
  argon2_hash : (salt password : String) → String
  argon2_verify : (hash password : String) → Bool
  argon2_needs_rehash : String → Bool
  dummy_hash : String
  email_str : String → Option String
  casefold : String → String
  upper : String → String
  is_digit : Char → Bool
  sha256 : Bytes → String
  fernet_key : String → Bool
  fernet_encrypt : (key nonce plain : String) → String
  fernet_decrypt : (key token : String) → Option String
  totp_at : (secret : String) → (step : Int) → String
  provisioning_uri : (secret email : String) → String
  base64url_encode : Bytes → String
  base64url_to_bytes : String → Option Bytes
  webauthn_registration : RelyingParty → Credential → (challenge : Bytes) →
    Except WebauthnError RegisteredPasskey
  webauthn_authentication : RelyingParty → Credential → (challenge public_key : Bytes) →
    (stored : Nat) → Except WebauthnError Nat
  pdf_reader : Bytes → Except PdfError PdfReader

/-- A deployment: the packages it runs on and the settings it reads. -/
structure Server (Token : Type) extends Vendor Token where
  mfa_encryption_key : Option String
  webauthn_rp_id : String
  webauthn_origin : String

/-! ### `str` -/

/-- `str.isspace`, one character. -/
def py_space (c : Char) : Bool :=
  let n := c.toNat
  (9 ≤ n && n ≤ 13) || (28 ≤ n && n ≤ 32) || n == 0x85 || n == 0xA0 || n == 0x1680 ||
    (0x2000 ≤ n && n ≤ 0x200A) || n == 0x2028 || n == 0x2029 || n == 0x202F || n == 0x205F ||
    n == 0x3000

/-- `str.strip`. -/
def strip (s : String) : String :=
  String.ofList (((s.toList.dropWhile py_space).reverse.dropWhile py_space).reverse)

/-- `s.replace(c, "")`, for one character. -/
def without (c : Char) (s : String) : String :=
  String.ofList (s.toList.filter (fun d => d != c))

/-- Lower-case hexadecimal, most significant digit first, in `k` digits. -/
def hex_digits : (k : Nat) → Nat → List Char
  | 0, _ => []
  | k + 1, n => hex_digits k (n / 16) ++ [Nat.digitChar (n % 16)]

/-- `str(uuid)`: 8-4-4-4-12. -/
def Uuid.str (u : Uuid) : String :=
  let n := BitVec.toNat u
  String.ofList (hex_digits 8 (n / 16 ^ 24) ++ '-' :: hex_digits 4 (n / 16 ^ 20 % 16 ^ 4) ++
    '-' :: hex_digits 4 (n / 16 ^ 16 % 16 ^ 4) ++ '-' :: hex_digits 4 (n / 16 ^ 12 % 16 ^ 4) ++
    '-' :: hex_digits 12 (n % 16 ^ 12))

/-! ### Draws and failures of one request -/

/-- What happens to one call on the object store. -/
inductive StoreOutcome where
  | works
  /-- it raises and the object is as it was -/
  | fails
  /-- it raises after leaving something, or nothing, under the key -/
  | fails_leaving (data : Option Bytes)
  deriving DecidableEq

/-- What a request takes from its surroundings: the time, `uuid4` and `secrets`,
    and which of its statements, store calls and commit go through. -/
structure Env where
  now : Nat
  uuid : Nat → Uuid
  refresh_token : String
  salt : String
  totp_secret : String
  fernet_nonce : String
  recovery_raw : Nat → String
  challenge : Bytes
  faults : List Bool
  store_outcomes : List StoreOutcome
  commits : Bool

end CounselReady
