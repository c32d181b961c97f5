import CounselReady.Vendor
import CounselReady.Framework.Transaction
import Mathlib.Data.List.Sort

/-! # Handlers

    The operations a request handler performs: statements of its database
    session, calls on the object store, and signatures. The object store is
    outside the transaction: what is put there stays after a rollback. So is
    the record of what has been signed.
-/

namespace CounselReady

open Relational Framework

/-! ### Exceptions -/

/-- The `detail` of an `HTTPException`. -/
inductive Detail where
  | text (message : String)
  | duplicate (message : String) (document_id : Uuid)
  /-- the validation report of a refused request body -/
  | validation
  deriving DecidableEq

structure HttpError where
  status : Nat
  detail : Detail
  headers : List (String × String)
  deriving DecidableEq

inductive StoreError where
  | not_found
  | unavailable
  deriving DecidableEq, Repr

/-- The closed vocabulary of `app.ingest.ocr`. -/
inductive OcrErrorClass where
  | ocr_engine_unavailable
  | document_bytes_missing
  | ocr_engine_failed
  | document_not_found
  deriving DecidableEq, Repr

inductive Exc where
  | http (e : HttpError)
  | database (v : Violation)
  | commit_failed
  | multiple_results_found
  | store (e : StoreError)
  | weak_password (message : String)
  | email_already_registered
  | rate_limited (retry_after : Nat)
  | authentication
  | invalid_refresh_token
  | invalid_access_token
  | invalid_challenge
  | mfa_not_configured
  | secret_decryption
  | mfa_already_enrolled
  | mfa_not_enrolled
  | invalid_mfa_code
  | passkey_verification
  | duplicate_document (existing_id : Uuid)
  | not_a_pdf
  | encrypted_pdf
  | unreadable_pdf
  | too_many_pages
  | upload_too_large
  | empty_upload
  | ocr_failure (error_class : OcrErrorClass)
  | type_error
  | value_error
  | key_error
  | unclassified
  deriving DecidableEq

def http_error (status : Nat) (message : String) : Exc :=
  .http ⟨status, .text message, []⟩

/-- A request body that validation refuses. -/
def unprocessable : Exc := .http ⟨422, .validation, []⟩

/-! ### The object store and the signing key -/

abbrev Store := String → Option Bytes

/-- What lies outside the database: the stored objects, the claims signed so
    far, and the fate of the store calls to come. -/
structure Outside where
  store : Store
  signed : List Payload
  outcomes : List StoreOutcome

inductive Ext where
  | put (key : String) (data : Bytes)
  | get (key : String)
  | remove (key : String)
  | sign (p : Payload)

abbrev Answer : Ext → Type
  | .put _ _ => Except StoreError Unit
  | .get _ => Except StoreError Bytes
  | .remove _ => Except StoreError Unit
  | .sign _ => Unit

def Store.set (s : Store) (key : String) (data : Option Bytes) : Store :=
  fun k => if k = key then data else s k

@[simp] theorem Store.set_self (s : Store) (key : String) (data : Option Bytes) :
    s.set key data key = data := by
  simp [Store.set]

@[simp] theorem Store.set_ne (s : Store) {key k : String} (data : Option Bytes) (h : k ≠ key) :
    s.set key data k = s k := by
  simp [Store.set, h]

def Outside.outcome (o : Outside) : StoreOutcome := o.outcomes.head?.getD .works

/-- The store after a call that was to leave `data` under `key`. -/
def Outside.written (o : Outside) (key : String) (data : Option Bytes) : Outside :=
  { o with
    store := match o.outcome with
      | .works => o.store.set key data
      | .fails => o.store
      | .fails_leaving left => o.store.set key left
    outcomes := o.outcomes.tail }

theorem Outside.written_ne (o : Outside) {key k : String} (data : Option Bytes) (h : k ≠ key) :
    (o.written key data).store k = o.store k := by
  unfold Outside.written
  cases o.outcome with
  | works => exact Store.set_ne _ _ h
  | fails => rfl
  | fails_leaving left => exact Store.set_ne _ _ h

theorem Outside.written_self {o : Outside} (h : o.outcome = .works) (key : String)
    (data : Option Bytes) : (o.written key data).store key = data := by
  unfold Outside.written
  rw [h]
  exact Store.set_self _ _ _

def run_ext : (e : Ext) → Outside → Answer e × Outside
  | .put key data, o =>
      (if o.outcome = .works then .ok () else .error .unavailable, o.written key (some data))
  | .get key, o =>
      (match o.outcome, o.store key with
        | .works, some data => .ok data
        | .works, none => .error .not_found
        | _, _ => .error .unavailable,
       { o with outcomes := o.outcomes.tail })
  | .remove key, o =>
      (if o.outcome = .works then .ok () else .error .unavailable, o.written key none)
  | .sign p, o => ((), { o with signed := o.signed ++ [p] })

/-! ### Handlers -/

abbrev Handler (α : Type) := DbProg Row Patch Uuid Answer Exc α

abbrev Database := Db Row

abbrev Session := Tx Row Outside

abbrev Committed := World Row Outside

namespace Handler

def insert (t : Table) (row : Row t) : Handler Unit :=
  execute .database (.insert t row)

def update (t : Table) (id : Uuid) (patch : Patch t) : Handler Unit :=
  execute .database (.update t id patch)

def delete (t : Table) (id : Uuid) : Handler Unit :=
  execute .database (.delete t id)

def insert_all (t : Table) : List (Row t) → Handler Unit
  | [] => pure ()
  | row :: rows => do
      insert t row
      insert_all t rows

/-- `scalar_one_or_none` on a SELECT. -/
def select_one (t : Table) (p : Row t → Bool) : Handler (Option (Row t)) := do
  match ← select t p with
  | [] => pure none
  | [row] => pure (some row)
  | _ :: _ :: _ => .raise .multiple_results_found

/-- `ORDER BY`: rows the key cannot tell apart stay in insertion order. -/
def order_by {α : Type} (le : α → α → Bool) (rows : List α) : List α :=
  rows.insertionSort (fun a b => le a b)

/-- Sign claims under the server's key. -/
def sign {Token : Type} (srv : Server Token) (p : Payload) : Handler Token := do
  perform_ext (Ext.sign p)
  pure (srv.jwt_encode p)

/-- A store call whose failure is not caught. -/
def put (key : String) (data : Bytes) : Handler Unit := do
  let done : Except StoreError Unit ← perform_ext (Ext.put key data)
  match done with
  | .ok _ => pure ()
  | .error e => .raise (.store e)

/-- `raise` unless the condition holds. -/
def require (c : Bool) (e : Exc) : Handler Unit :=
  if c then pure () else .raise e

/-- The value, or `raise`. -/
def some_or {α : Type} (x : Option α) (e : Exc) : Handler α :=
  match x with
  | some a => pure a
  | none => .raise e

/-- The outcome of a computation that touches nothing. -/
def ok_or {α : Type} : Except Exc α → Handler α
  | .ok a => pure a
  | .error e => .raise e

end Handler

/-! ### Ordered rows -/

section ordered
variable {α : Type} {le : α → α → Bool} {rows : List α}

open Handler

theorem order_by_perm : (order_by le rows).Perm rows := List.perm_insertionSort _ rows

@[simp] theorem mem_order_by {a : α} : a ∈ order_by le rows ↔ a ∈ rows := order_by_perm.mem_iff

theorem order_by_sorted (htotal : ∀ a b, le a b = true ∨ le b a = true)
    (htrans : ∀ a b c, le a b = true → le b c = true → le a c = true) :
    (order_by le rows).Pairwise (fun a b => le a b = true) := by
  have total : Std.Total (fun a b : α => le a b = true) := ⟨htotal⟩
  have trans : IsTrans α (fun a b : α => le a b = true) := ⟨htrans⟩
  exact List.pairwise_insertionSort (fun a b : α => le a b = true) rows

/-- Rows that come in order stay as they came. -/
theorem order_by_of_sorted (hsorted : rows.Pairwise (fun a b => le a b = true)) :
    order_by le rows = rows := List.Pairwise.insertionSort_eq hsorted

/-- Rows the key tells apart come in one order, however they are met. -/
theorem order_by_eq_of_perm {rows' : List α} (htotal : ∀ a b, le a b = true ∨ le b a = true)
    (htrans : ∀ a b c, le a b = true → le b c = true → le a c = true) (hperm : rows.Perm rows')
    (hapart : ∀ a ∈ rows, ∀ b ∈ rows, le a b = true → le b a = true → a = b) :
    order_by le rows = order_by le rows' := by
  have hsame : (order_by le rows).Perm (order_by le rows') :=
    order_by_perm.trans (hperm.trans order_by_perm.symm)
  refine List.Perm.eq_of_pairwise (fun a b ha hb hab hba => ?_)
    (order_by_sorted htotal htrans) (order_by_sorted htotal htrans) hsame
  have hb' : b ∈ order_by le rows := hsame.mem_iff.mpr hb
  exact hapart a (mem_order_by.mp ha) b (mem_order_by.mp hb') hab hba

/-- Rows the key cannot tell apart stay in the order they are met in. -/
theorem order_by_pair {a b : α} (hle : le a b = true) (hpair : [a, b].Sublist rows) :
    [a, b].Sublist (order_by le rows) :=
  List.pair_sublist_insertionSort hle hpair

end ordered

/-- Sorted by one column. -/
theorem order_by_key {α κ : Type} [LinearOrder κ] (key : α → κ) (rows : List α) :
    (Handler.order_by (fun a b => decide (key a ≤ key b)) rows).Pairwise
      (fun a b => key a ≤ key b) := by
  have hsorted := @order_by_sorted α (fun a b => decide (key a ≤ key b)) rows
    (fun a b => by simpa using le_total (key a) (key b))
    (fun a b c hab hbc => by
      simp only [decide_eq_true_eq] at hab hbc ⊢
      exact le_trans hab hbc)
  exact hsorted.imp (fun hab => by simpa using hab)

/-- The state as the request finds it, with the fate of its store calls. -/
def Committed.met (w : Committed) (env : Env) : Committed :=
  { w with ext := { w.ext with outcomes := env.store_outcomes } }

@[simp] theorem Committed.met_db (w : Committed) (env : Env) : (w.met env).db = w.db := rfl

/-- `session.begin()`. -/
def Committed.begin (w : Committed) (env : Env) : Session :=
  ⟨w.db, (w.met env).ext, env.faults⟩

@[simp] theorem Committed.begin_db (w : Committed) (env : Env) : (w.begin env).db = w.db := rfl

/-- `get_session`: one transaction around the whole request. -/
def get_session {α : Type} (env : Env) (p : Handler α) (w : Committed) :
    Except Exc α × Committed :=
  transact schema run_ext .commit_failed env.commits env.faults p (w.met env)

/-- `wp` of a handler inside its session. -/
abbrev wps {α : Type} (p : Handler α) (Q : Except Exc α → Session → Prop) (s : Session) : Prop :=
  Prog.wp (perform schema run_ext) p Q s

/-! ### What holds after a handler -/

section wps_rules
variable {s : Session}

open Handler

@[simp] theorem wps_require {c : Bool} {e : Exc} {Q : Except Exc Unit → Session → Prop} :
    wps (require c e) Q s ↔ (c = true → Q (.ok ()) s) ∧ (c = false → Q (.error e) s) := by
  unfold require
  cases c <;> simp

@[simp] theorem wps_some_or {α : Type} {x : Option α} {e : Exc}
    {Q : Except Exc α → Session → Prop} :
    wps (some_or x e) Q s ↔ (∀ a, x = some a → Q (.ok a) s) ∧ (x = none → Q (.error e) s) := by
  unfold some_or
  cases x <;> simp

@[simp] theorem wps_ok_or {α : Type} {x : Except Exc α} {Q : Except Exc α → Session → Prop} :
    wps (ok_or x) Q s ↔ Q x s := by
  unfold ok_or
  cases x <;> simp

/-- One row matches, or none does; several are an error. -/
theorem wps_select_one {t : Table} {p : Row t → Bool}
    {Q : Except Exc (Option (Row t)) → Session → Prop}
    (hnone : (∀ r ∈ s.db t, p r = false) → Q (.ok none) s)
    (hsome : ∀ r ∈ s.db t, p r = true → (s.db t).filter p = [r] → Q (.ok (some r)) s)
    (hmany : 1 < ((s.db t).filter p).length → Q (.error .multiple_results_found) s) :
    wps (select_one t p) Q s := by
  unfold select_one
  simp only [wps, Prog.wp_bind, wp_select]
  cases hf : (s.db t).filter p with
  | nil =>
    refine (Prog.wp_pure _).mpr (hnone ?_)
    intro r hr
    by_contra hp
    have hmem : r ∈ (s.db t).filter p := List.mem_filter.mpr ⟨hr, by simpa using hp⟩
    rw [hf] at hmem
    exact List.not_mem_nil hmem
  | cons r rest =>
    cases rest with
    | nil =>
      have hmem : r ∈ (s.db t).filter p := by rw [hf]; exact List.mem_singleton_self r
      exact (Prog.wp_pure _).mpr
        (hsome r (List.mem_filter.mp hmem).1 (List.mem_filter.mp hmem).2 hf)
    | cons r' rest => exact (Prog.wp_raise _).mpr (hmany (by rw [hf]; simp))

/-- The rows that match are known: none, or one. -/
theorem wps_select_found {t : Table} {p : Row t → Bool} {found : Option (Row t)}
    {Q : Except Exc (Option (Row t)) → Session → Prop}
    (hfound : (s.db t).filter p = found.toList) (hQ : Q (.ok found) s) :
    wps (select_one t p) Q s := by
  unfold select_one
  simp only [wps, Prog.wp_bind, wp_select]
  rw [hfound]
  cases found with
  | none => exact (Prog.wp_pure _).mpr hQ
  | some r => exact (Prog.wp_pure _).mpr hQ

/-! The same rules with the rest of the handler behind them, to walk down a `do` block. -/

section walk
variable {α β : Type} {Q : Except Exc β → Session → Prop}

theorem wps_bind {p : Handler α} {f : α → Handler β}
    (h : wps p (Prog.after (perform schema run_ext) f Q) s) : wps (p >>= f) Q s :=
  (Prog.wp_bind p f).mpr h

theorem wps_mono {p : Handler β} {Q' : Except Exc β → Session → Prop} (h : wps p Q' s)
    (hQ : ∀ r s', Q' r s' → Q r s') : wps p Q s := Prog.wp_mono h hQ

theorem wps_some_or_bind {x : Option α} {e : Exc} {f : α → Handler β}
    (hnone : x = none → Q (.error e) s) (hsome : ∀ a, x = some a → wps (f a) Q s) :
    wps (some_or x e >>= f) Q s :=
  wps_bind (wps_some_or.mpr ⟨hsome, hnone⟩)

theorem wps_require_bind {c : Bool} {e : Exc} {f : Unit → Handler β}
    (hfalse : c = false → Q (.error e) s) (htrue : c = true → wps (f ()) Q s) :
    wps (require c e >>= f) Q s :=
  wps_bind (wps_require.mpr ⟨htrue, hfalse⟩)

theorem wps_select_bind {t : Table} {p : Row t → Bool} {f : List (Row t) → Handler β}
    (h : wps (f ((s.db t).filter p)) Q s) : wps (select t p >>= f) Q s :=
  wps_bind (wp_select.mpr h)

theorem wps_select_one_bind {t : Table} {p : Row t → Bool} {f : Option (Row t) → Handler β}
    (hmany : Q (.error .multiple_results_found) s)
    (hnone : (∀ r ∈ s.db t, p r = false) → wps (f none) Q s)
    (hsome : ∀ r ∈ s.db t, p r = true → (s.db t).filter p = [r] → wps (f (some r)) Q s) :
    wps (select_one t p >>= f) Q s :=
  wps_bind (wps_select_one hnone hsome (fun _ => hmany))

/-- A statement of the session: it fails and changes nothing, or is carried out. -/
theorem wps_execute {w : Write Row Patch Uuid} {Q : Except Exc Unit → Session → Prop}
    (hfail : ∀ v, Q (.error (.database v)) { s with faults := s.faults.tail })
    (hok : schema.check s.db w = none → Q (.ok ()) { s with
      db := schema.effect (schema.resolve s.db w) s.db, faults := s.faults.tail }) :
    wps (execute .database w) Q s := wp_execute hfail hok

theorem wps_execute_bind {w : Write Row Patch Uuid} {f : Unit → Handler β}
    (hfail : ∀ v, Q (.error (.database v)) { s with faults := s.faults.tail })
    (hok : schema.check s.db w = none → wps (f ()) Q { s with
      db := schema.effect (schema.resolve s.db w) s.db, faults := s.faults.tail }) :
    wps (execute .database w >>= f) Q s :=
  wps_bind (wps_execute hfail hok)

end walk

/-- A handler whose every ending satisfies `P` before the COMMIT satisfies it
    after, with the rows it found when nothing is committed. -/
theorem get_session_wps {α : Type} {env : Env} {p : Handler α} {w : Committed}
    {P : Except Exc α → Committed → Prop}
    (h : wps p (settles .commit_failed env.commits (w.met env) P) (w.begin env)) :
    P (get_session env p w).1 (get_session env p w).2 :=
  transact_wp h

end wps_rules

/-! ### Operations a handler is confined to -/

section every_rules
variable {A : Op Row Patch Uuid Ext → Prop}

open Handler Prog

/-- Every operation of the handler, whatever it is answered, satisfies `A`. -/
abbrev Confined {α : Type} (A : Op Row Patch Uuid Ext → Prop) (p : Handler α) : Prop :=
  Every A p

theorem confined_bind {α β : Type} {p : Handler α} {f : α → Handler β} (hp : Confined A p)
    (hf : ∀ a, Confined A (f a)) : Confined A (p >>= f) := every_bind hp hf

theorem confined_require {c : Bool} {e : Exc} : Confined A (require c e) := by
  unfold require
  cases c <;> simp

theorem confined_some_or {α : Type} {x : Option α} {e : Exc} : Confined A (some_or x e) := by
  unfold some_or
  cases x <;> simp

theorem confined_ok_or {α : Type} {x : Except Exc α} : Confined A (ok_or x) := by
  unfold ok_or
  cases x <;> simp

theorem confined_select_one {t : Table} {p : Row t → Bool} (h : A (.select t p)) :
    Confined A (select_one t p) := by
  refine confined_bind (every_select h) ?_
  intro rows
  match rows with
  | [] => exact every_pure _
  | [_] => exact every_pure _
  | _ :: _ :: _ => exact every_raise _

theorem confined_insert {t : Table} {row : Row t} (h : A (.write (.insert t row))) :
    Confined A (insert t row) := every_execute h

theorem confined_update {t : Table} {id : Uuid} {patch : Patch t}
    (h : A (.write (.update t id patch))) : Confined A (update t id patch) := every_execute h

theorem confined_delete {t : Table} {id : Uuid} (h : A (.write (.delete t id))) :
    Confined A (delete t id) := every_execute h

theorem confined_insert_all {t : Table} {rows : List (Row t)}
    (h : ∀ row ∈ rows, A (.write (.insert t row))) : Confined A (insert_all t rows) := by
  induction rows with
  | nil => exact every_pure _
  | cons row rows ih =>
    refine confined_bind (confined_insert (h row List.mem_cons_self)) ?_
    intro _
    exact ih (fun r hr => h r (List.mem_cons_of_mem _ hr))

theorem confined_sign {Token : Type} {srv : Server Token} {p : Payload} (h : A (.ext (.sign p))) :
    Confined A (sign srv p) :=
  confined_bind (every_perform_ext h) (fun _ => every_pure _)

theorem confined_put {key : String} {data : Bytes} (h : A (.ext (.put key data))) :
    Confined A (put key data) := by
  refine confined_bind (every_perform_ext h) ?_
  intro done
  cases done <;> simp

/-- What the permitted operations preserve holds wherever the handler ends. -/
theorem wps_confined {α : Type} {A : Op Row Patch Uuid Ext → Prop} {I : Session → Prop}
    {p : Handler α} (hp : Confined A p)
    (hI : ∀ o s, A o → I s → I (perform schema run_ext o s).2) (hs : I s) :
    wps p (fun _ s' => I s') s := by
  have hend := exec_every (h := perform schema run_ext) hI hp hs
  unfold wps wp
  exact hend

/-- **Confinement.** What each permitted operation preserves holds after the
    transaction too, when it also holds with the rows the transaction found. -/
theorem get_session_confined {α : Type} {env : Env} {p : Handler α} {w : Committed}
    {I : Session → Prop} {P : Committed → Prop} (hp : Confined A p)
    (hI : ∀ o s, A o → I s → I (perform schema run_ext o s).2)
    (h0 : I (w.begin env))
    (hcommit : ∀ s, I s → P ⟨s.db, s.ext⟩) (hrollback : ∀ s, I s → P ⟨w.db, s.ext⟩) :
    P (get_session env p w).2 := by
  have hend := exec_every (h := perform schema run_ext) hI hp h0
  unfold get_session transact
  unfold Committed.begin at hend
  rw [Committed.met_db]
  generalize p.exec (perform schema run_ext) _ = x at hend ⊢
  obtain ⟨r, s'⟩ := x
  cases r with
  | error e => exact hrollback _ hend
  | ok a =>
    cases env.commits with
    | true => exact hcommit _ hend
    | false => exact hrollback _ hend

end every_rules

end CounselReady
