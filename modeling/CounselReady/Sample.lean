import CounselReady.Rules

/-! # A Deployment Small Enough to Run

    Concrete stand-ins for the packages, and a decidable check that a list of
    steps is an honest run. What does not hold of all runs is shown to fail on a
    run of this deployment.

    The stand-ins keep what matters of the originals: digests and encodings
    tell their inputs apart, a signed token is accepted between its `iat` and
    its `exp`, a code depends on its time step.
-/

namespace CounselReady

open Relational Framework

namespace Sample

/-! ### The packages -/

def text_of (data : Bytes) : String := String.ofList (data.map (fun b => Char.ofNat b.toNat))

def bytes_of (text : String) : Bytes := text.toList.map (fun c => UInt8.ofNat c.toNat)

/-- A digest of 64 characters that tells short inputs apart. -/
def digest (data : Bytes) : String :=
  String.ofList (((text_of data).toList ++ List.replicate 64 '-').take 64)

/-- A reader of one-page files whose page says what follows the magic. -/
def reader (data : Bytes) : PdfReader where
  is_encrypted := false
  decrypt := .ok true
  page_count := .ok 1
  extract_text := fun _ => .ok (some (text_of (data.drop pdf_magic.length)))

def vendor : Vendor Payload where
  jwt_encode := fun p => p
  jwt_decode := fun p now => if p.iat * second ≤ now ∧ now < p.exp * second then some p else none
  token_length := fun _ => 300
  argon2_hash := fun _ password => password
  argon2_verify := fun hash password => hash == password
  argon2_needs_rehash := fun _ => false
  dummy_hash := ""
  email_str := some
  casefold := id
  upper := id
  is_digit := Char.isDigit
  sha256 := digest
  fernet_key := fun _ => true
  fernet_encrypt := fun _ _ plain => plain
  fernet_decrypt := fun _ token => some token
  totp_at := fun _ step => Nat.repr (100000 + step.toNat % 100000)
  provisioning_uri := fun secret email => secret ++ email
  base64url_encode := text_of
  base64url_to_bytes := fun text => some (bytes_of text)
  webauthn_registration := fun _ credential _ => .ok ⟨bytes_of credential.json, [], 0, false⟩
  -- a stored and a presented count of zero: an authenticator that does not count
  webauthn_authentication := fun _ _ _ _ stored => if stored = 0 then .ok 0 else .error .refused
  pdf_reader := fun data => .ok (reader data)

def server : Server Payload :=
  { vendor with
    mfa_encryption_key := some "key", webauthn_rp_id := "localhost"
    webauthn_origin := "http://localhost:5173" }

/-- The surroundings of one request: everything works, and its draws are those of
    `serial`. -/
def env (serial now : Nat) : Env where
  now := now
  uuid := fun i => BitVec.ofNat 128 (4096 * serial + i % 4096)
  refresh_token := Nat.repr serial
  salt := ""
  totp_secret := "secret"
  fernet_nonce := ""
  recovery_raw := fun i => Nat.repr (10000000000000000000 + 100 * serial + i)
  challenge := bytes_of (Nat.repr serial)
  faults := []
  store_outcomes := []
  commits := true

/-! ### Honest steps -/

/-- No id or digest of the run is one that `serial` draws. -/
def unseen (h : History Payload) (serial : Nat) : Bool :=
  (h.worlds.all (fun w => table_order.all (fun t => (w.db t).all (fun r =>
      decide (BitVec.toNat (row_pk t r) < 4096 * serial)))) &&
    h.world.ext.signed.all (fun p => p.sid.all (fun i => decide (BitVec.toNat i < 4096 * serial)))) &&
    h.worlds.all (fun w =>
      (w.db .user_session).all (fun (s : UserSession) =>
        s.refresh_digest != hash_refresh_token server (Nat.repr serial)) &&
      (w.db .used_refresh_token).all (fun (u : UsedRefreshToken) =>
        u.digest != hash_refresh_token server (Nat.repr serial)))

def authentic (h : History Payload) (now : Nat) (req : Request Payload) : Bool :=
  req.presented.all (fun token => (server.jwt_decode token now).all (fun p =>
    decide (p ∈ h.world.ext.signed)))

theorem toNat_uuid {serial now i : Nat} (hs : serial < 2 ^ 100) :
    BitVec.toNat ((env serial now).uuid i) = 4096 * serial + i % 4096 := by
  simp only [env, BitVec.toNat_ofNat]
  omega

theorem fresh_of_unseen {h : History Payload} {serial : Nat} {e : Env} (hs : serial < 2 ^ 100)
    (huuid : e.uuid = (env serial 0).uuid) (htoken : e.refresh_token = Nat.repr serial)
    (hu : unseen h serial = true) : Fresh server h e := by
  simp only [unseen, Bool.and_eq_true, List.all_eq_true, decide_eq_true_eq] at hu
  obtain ⟨⟨hids, hsids⟩, hdigs⟩ := hu
  have hbig : ∀ i, 4096 * serial ≤ BitVec.toNat (e.uuid i) := by
    intro i
    rw [huuid, toNat_uuid hs]
    omega
  refine ⟨?_, ?_, ?_, ?_, ?_⟩
  · intro i hi j hj heq
    have hdraws : draws = 2003 := rfl
    have := congrArg BitVec.toNat heq
    rw [huuid, toNat_uuid hs, toNat_uuid hs] at this
    omega
  · intro w hw t r hr i heq
    have hlt := hids w hw t (schema_regular.ordered t) r hr
    have := hbig i
    rw [heq] at hlt
    omega
  · intro p hp i heq
    have hlt := hsids p hp
    rw [heq] at hlt
    have := hbig i
    simp only [Option.all_some, decide_eq_true_eq] at hlt
    omega
  · intro w hw r hr
    rw [htoken]
    simpa using (hdigs w hw).1 r hr
  · intro w hw r hr
    rw [htoken]
    simpa using (hdigs w hw).2 r hr

/-- The decidable form of `Honest`, for a request drawing from `serial`. -/
theorem honest_of_check {h : History Payload} {serial : Nat} {e : Env} {req : Request Payload}
    (hs : serial < 2 ^ 100) (huuid : e.uuid = (env serial 0).uuid)
    (htoken : e.refresh_token = Nat.repr serial)
    (hc : (unseen h serial && authentic h e.now req) = true) :
    Honest server h (.request e req) := by
  rw [Bool.and_eq_true] at hc
  refine ⟨fresh_of_unseen hs huuid htoken hc.1, ?_⟩
  intro token htok p hdec
  have hall := List.all_eq_true.mp hc.2 token htok
  rw [hdec] at hall
  simpa using hall

/-! ### Databases -/

/-- The declared constraints, table by table. -/
def admissible (db : Database) : Bool :=
  table_order.all (fun t =>
    decide ((db t).Pairwise (fun a b => row_pk t a ≠ row_pk t b)) &&
      decide ((db t).Pairwise (fun a b => row_clash t a b = false)) &&
      (db t).all (fun r => schema.anchored db t r && decide (row_fits t r = none)))

theorem sound_of_admissible {db : Database} (h : admissible db = true) :
    schema.Consistent db ∧ schema.Fitting db := by
  simp only [admissible, List.all_eq_true, Bool.and_eq_true, decide_eq_true_eq] at h
  have hall := fun t => h t (schema_regular.ordered t)
  refine ⟨⟨?_, ?_, ?_⟩, ?_⟩
  · exact fun t => (hall t).1.1
  · exact fun t => (hall t).1.2
  · exact fun t r hr => ((hall t).2 r hr).1
  · exact fun t r hr => ((hall t).2 r hr).2

/-- An account with a case, and in it a scan of one blank page. -/
def scan : Database
  | .user_account => [⟨1#128, "a@x.org", none, true, none⟩]
  | .case_ => [⟨2#128, 0, 1#128, "In re A", .florida, none, none⟩]
  | .document => [⟨3#128, 0, 2#128, "Scan", .unclassified, .upload, "scan", "d", none, 1, .needs_ocr⟩]
  | .document_page => [⟨4#128, 3#128, 1, "", none⟩]
  | _ => []

/-- A transaction over these rows, with one object in the store. -/
def session (db : Database) : Session :=
  ⟨db, ⟨fun key => if key = "scan" then some [] else none, [], []⟩, []⟩

/-! ### Scripts -/

/-- A request of a script: the serial number of its draws and its time. -/
structure Line where
  serial : Nat
  now : Nat
  req : Request Payload

def Line.step (l : Line) : Step Payload := .request (env l.serial l.now) l.req

/-- The run of a script, latest line first. -/
def play : List Line → History Payload
  | [] => .start
  | l :: earlier => (play earlier).next server l.step

def honest : List Line → Bool
  | [] => true
  | l :: earlier => honest earlier && (decide (l.serial < 2 ^ 100) &&
      (unseen (play earlier) l.serial && authentic (play earlier) l.now l.req))

theorem honest_line {l : Line} {earlier : List Line} (h : honest (l :: earlier) = true) :
    Honest server (play earlier) l.step := by
  simp only [honest, Bool.and_eq_true, decide_eq_true_eq] at h
  exact honest_of_check h.2.1 rfl rfl (Bool.and_eq_true_iff.mpr h.2.2)

theorem reaches_play {ls : List Line} (h : honest ls = true) :
    Reaches server (Honest server) .start (play ls) := by
  induction ls with
  | nil => exact .refl
  | cons l earlier ih =>
    have hearlier : honest earlier = true := by
      simp only [honest, Bool.and_eq_true] at h
      exact h.1
    exact .step l.step (ih hearlier) (honest_line h)

/-- The steps of a script are its lines. -/
theorem past_play {ls : List Line} {p : Step Payload × Committed} (hp : p ∈ (play ls).past) :
    ∃ l ∈ ls, p.1 = l.step := by
  induction ls with
  | nil => cases hp
  | cons l earlier ih =>
    rcases List.mem_cons.mp hp with rfl | hold
    · exact ⟨l, List.mem_cons_self, rfl⟩
    · obtain ⟨l', hl', heq⟩ := ih hold
      exact ⟨l', List.mem_cons_of_mem _ hl', heq⟩

end Sample

end CounselReady
