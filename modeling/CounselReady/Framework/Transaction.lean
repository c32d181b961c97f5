import CounselReady.Framework.Program
import CounselReady.Framework.Relational

/-! # Transactions, One at a Time

    Programs whose operations are SQL statements against a relational store,
    together with whatever else they touch (`Ext`): effects that no rollback
    takes back.

    `transact` runs one program as one transaction. It commits when the
    program returns, rolls back when it raises, and rolls back when the commit
    itself fails. Statements may also fail for reasons of their own (`faults`).
-/

namespace Framework

open Relational

variable {Table Id Ext : Type} {Row Patch : Table → Type} {Answer : Ext → Type}
  {ε α σ : Type}

/-! ### Operations -/

inductive Op (Row Patch : Table → Type) (Id Ext : Type) where
  /-- a SELECT of whole rows of one table -/
  | select (t : Table) (p : Row t → Bool)
  /-- a SELECT over several tables at once -/
  | snapshot
  | write (w : Write Row Patch Id)
  | ext (e : Ext)

def Op.Res (Answer : Ext → Type) : Op Row Patch Id Ext → Type
  | .select t _ => List (Row t)
  | .snapshot => Db Row
  | .write _ => Except Violation Unit
  | .ext e => Answer e

/-- The signature of programs over a store with rows `Row`. -/
abbrev db_sig (Row Patch : Table → Type) (Id : Type) {Ext : Type} (Answer : Ext → Type) :
    Signature :=
  ⟨Op Row Patch Id Ext, Op.Res Answer⟩

abbrev DbProg {Table : Type} (Row Patch : Table → Type) (Id : Type) {Ext : Type}
    (Answer : Ext → Type) (ε α : Type) :=
  Prog (db_sig Row Patch Id Answer) ε α

def select (t : Table) (p : Row t → Bool) : DbProg Row Patch Id Answer ε (List (Row t)) :=
  .call (.select t p) .ret

def snapshot : DbProg Row Patch Id Answer ε (Db Row) :=
  .call .snapshot .ret

/-- Issue a statement. `inj` is the exception a violation surfaces as. -/
def execute (inj : Violation → ε) (w : Write Row Patch Id) : DbProg Row Patch Id Answer ε Unit :=
  .call (.write w) (fun r => match r with
    | .ok _ => .ret ()
    | .error v => .raise (inj v))

def perform_ext (e : Ext) : DbProg Row Patch Id Answer ε (Answer e) :=
  .call (.ext e) .ret

/-- What every answer to an operation satisfies: a SELECT finds what it asks for. -/
def Selected : (o : Op Row Patch Id Ext) → Op.Res Answer o → Prop
  | .select _ p, (rows : List _) => ∀ r ∈ rows, p r = true
  | _, _ => True

/-! ### One transaction -/

/-- The state inside a transaction: the rows as it sees them, the outside
    state, and which of its coming statements fail. -/
structure Tx (Row : Table → Type) (σ : Type) where
  db : Db Row
  ext : σ
  faults : List Bool

/-- The committed rows and the outside state. -/
structure World (Row : Table → Type) (σ : Type) where
  db : Db Row
  ext : σ

variable [DecidableEq Table] [DecidableEq Id]
variable (S : Schema Table Row Patch Id) (run_ext : (e : Ext) → σ → Answer e × σ)

def perform : Prog.Handler (db_sig Row Patch Id Answer) (Tx Row σ)
  | .select t p, s => ((s.db t).filter p, s)
  | .snapshot, s => (s.db, s)
  | .write w, s =>
      if s.faults.head? = some true then
        (.error .unavailable, { s with faults := s.faults.tail })
      else
        ((S.attempt w s.db).1,
          { s with db := (S.attempt w s.db).2, faults := s.faults.tail })
  | .ext e, s => ((run_ext e s.ext).1, { s with ext := (run_ext e s.ext).2 })

/-- A request-wide transaction. `commits` tells whether the COMMIT goes
    through, `failure` is the exception raised when it does not. -/
def transact (failure : ε) (commits : Bool) (faults : List Bool)
    (p : DbProg Row Patch Id Answer ε α) (w : World Row σ) : Except ε α × World Row σ :=
  match p.exec (perform S run_ext) ⟨w.db, w.ext, faults⟩ with
  | (.ok a, s) =>
      if commits then (.ok a, ⟨s.db, s.ext⟩) else (.error failure, ⟨w.db, s.ext⟩)
  | (.error e, s) => (.error e, ⟨w.db, s.ext⟩)

/-- What a program must establish for its transaction to establish `P`: the rows
    it found stand in for the rows it left when nothing is committed. -/
def settles (failure : ε) (commits : Bool) (w : World Row σ)
    (P : Except ε α → World Row σ → Prop) : Except ε α → Tx Row σ → Prop
  | .ok a, s => (commits = true → P (.ok a) ⟨s.db, s.ext⟩) ∧
      (commits = false → P (.error failure) ⟨w.db, s.ext⟩)
  | .error e, s => P (.error e) ⟨w.db, s.ext⟩

/-! ### Rules -/

section rules
variable {S run_ext} {s : Tx Row σ}

open Prog

@[simp] theorem wp_select {t : Table} {p : Row t → Bool}
    {Q : Except ε (List (Row t)) → Tx Row σ → Prop} :
    wp (perform S run_ext) (select t p) Q s ↔ Q (.ok ((s.db t).filter p)) s :=
  (wp_call _ _).trans (wp_ret _)

@[simp] theorem wp_snapshot {Q : Except ε (Db Row) → Tx Row σ → Prop} :
    wp (perform S run_ext) snapshot Q s ↔ Q (.ok s.db) s :=
  (wp_call _ _).trans (wp_ret _)

@[simp] theorem wp_perform_ext {e : Ext} {Q : Except ε (Answer e) → Tx Row σ → Prop} :
    wp (perform S run_ext) (perform_ext e) Q s ↔
      Q (.ok (run_ext e s.ext).1) { s with ext := (run_ext e s.ext).2 } :=
  (wp_call _ _).trans (wp_ret _)

/-- A statement meets a fault, or is refused, or is carried out. -/
theorem wp_execute_cases {inj : Violation → ε} {w : Write Row Patch Id}
    {Q : Except ε Unit → Tx Row σ → Prop}
    (hfault : s.faults.head? = some true →
      Q (.error (inj .unavailable)) { s with faults := s.faults.tail })
    (hrefused : ∀ v, S.check s.db w = some v →
      Q (.error (inj v)) { s with faults := s.faults.tail })
    (hok : s.faults.head? ≠ some true → S.check s.db w = none →
      Q (.ok ()) { s with
        db := S.effect (S.resolve s.db w) s.db, faults := s.faults.tail }) :
    wp (perform S run_ext) (execute inj w) Q s := by
  refine (wp_call _ _).mpr ?_
  simp only [perform, Schema.attempt]
  by_cases hf : s.faults.head? = some true
  · simp only [if_pos hf]
    exact (wp_raise _).mpr (hfault hf)
  · simp only [if_neg hf]
    cases hchk : S.check s.db w with
    | some v => exact (wp_raise _).mpr (hrefused v hchk)
    | none => exact (wp_ret _).mpr (hok hf hchk)

/-- A statement fails, and changes nothing, or is admitted and carried out. -/
theorem wp_execute {inj : Violation → ε} {w : Write Row Patch Id}
    {Q : Except ε Unit → Tx Row σ → Prop}
    (hfail : ∀ v, Q (.error (inj v)) { s with faults := s.faults.tail })
    (hok : S.check s.db w = none →
      Q (.ok ()) { s with
        db := S.effect (S.resolve s.db w) s.db, faults := s.faults.tail }) :
    wp (perform S run_ext) (execute inj w) Q s :=
  wp_execute_cases (fun _ => hfail _) (fun v _ => hfail v) (fun _ => hok)

/-- With no fault pending, the constraints alone decide. -/
theorem wp_execute_clean {inj : Violation → ε} {w : Write Row Patch Id}
    {Q : Except ε Unit → Tx Row σ → Prop} (hs : s.faults = []) :
    wp (perform S run_ext) (execute inj w) Q s ↔
      match S.check s.db w with
      | some v => Q (.error (inj v)) s
      | none => Q (.ok ()) { s with db := S.effect (S.resolve s.db w) s.db } := by
  obtain ⟨db, ext, faults⟩ := s
  subst hs
  refine (wp_call _ _).trans ?_
  simp only [perform, Schema.attempt]
  cases S.check db w with
  | some v => exact wp_raise _
  | none => exact wp_ret _

theorem transact_wp {failure : ε} {commits : Bool} {faults : List Bool}
    {p : DbProg Row Patch Id Answer ε α} {w : World Row σ}
    {P : Except ε α → World Row σ → Prop}
    (h : wp (perform S run_ext) p (settles failure commits w P) ⟨w.db, w.ext, faults⟩) :
    P (transact S run_ext failure commits faults p w).1
      (transact S run_ext failure commits faults p w).2 := by
  unfold transact
  unfold wp at h
  generalize p.exec (perform S run_ext) ⟨w.db, w.ext, faults⟩ = x at h
  obtain ⟨r, s'⟩ := x
  cases r with
  | error e => exact h
  | ok a =>
    cases commits with
    | true => exact h.1 rfl
    | false => exact h.2 rfl

/-- A transaction that is committed answers what its program does. -/
theorem transact_committed {failure : ε} {faults : List Bool}
    {p : DbProg Row Patch Id Answer ε α} {w : World Row σ} :
    (transact S run_ext failure true faults p w).1 =
      (p.exec (perform S run_ext) ⟨w.db, w.ext, faults⟩).1 := by
  unfold transact
  generalize p.exec (perform S run_ext) ⟨w.db, w.ext, faults⟩ = x
  obtain ⟨r, s'⟩ := x
  cases r <;> rfl

/-- One that is not has nothing to return. -/
theorem transact_uncommitted {failure : ε} {faults : List Bool}
    {p : DbProg Row Patch Id Answer ε α} {w : World Row σ} :
    ∃ e, (transact S run_ext failure false faults p w).1 = .error e := by
  unfold transact
  generalize p.exec (perform S run_ext) ⟨w.db, w.ext, faults⟩ = x
  obtain ⟨r, s'⟩ := x
  cases r with
  | error e => exact ⟨e, rfl⟩
  | ok a => exact ⟨failure, rfl⟩

end rules

/-! ### What one operation changes -/

/-- **Frame.** An operation leaves the rows alone, or is an admitted statement. -/
theorem perform_db (o : Op Row Patch Id Ext) (s : Tx Row σ) :
    (perform S run_ext o s).2.db = s.db ∨
      ∃ w, o = .write w ∧ S.check s.db w = none ∧
        (perform S run_ext o s).2.db = S.effect (S.resolve s.db w) s.db := by
  cases o with
  | select t p => exact .inl rfl
  | snapshot => exact .inl rfl
  | ext e => exact .inl rfl
  | write w =>
    simp only [perform, Schema.attempt]
    by_cases hf : s.faults.head? = some true
    · rw [if_pos hf]
      exact .inl rfl
    · rw [if_neg hf]
      cases hc : S.check s.db w with
      | some v => exact .inl rfl
      | none => exact .inr ⟨w, rfl, hc, rfl⟩

theorem perform_selected (o : Op Row Patch Id Ext) (s : Tx Row σ) :
    Selected o (perform S run_ext o s).1 := by
  cases o with
  | select t p => exact fun r hr => (List.mem_filter.mp hr).2
  | snapshot => trivial
  | write w => trivial
  | ext e => trivial

/-- Only a call on the outside changes it. -/
theorem perform_ext_state (o : Op Row Patch Id Ext) (s : Tx Row σ) :
    (perform S run_ext o s).2.ext = s.ext ∨
      ∃ e, o = .ext e ∧ (perform S run_ext o s).2.ext = (run_ext e s.ext).2 := by
  cases o with
  | select t p => exact .inl rfl
  | snapshot => exact .inl rfl
  | ext e => exact .inr ⟨e, rfl, rfl⟩
  | write w =>
    simp only [perform]
    split <;> exact .inl rfl

/-! ### Confinement of single operations -/

section every
variable {A : (db_sig Row Patch Id Answer).Op → Prop}

open Prog

omit [DecidableEq Table] [DecidableEq Id]

theorem every_select {t : Table} {p : Row t → Bool} (h : A (.select t p)) :
    Every A (select t p : DbProg Row Patch Id Answer ε _) := by
  refine (every_call _ _).mpr ⟨h, ?_⟩
  intro rows
  exact every_ret _

theorem every_snapshot (h : A .snapshot) :
    Every A (snapshot : DbProg Row Patch Id Answer ε _) := by
  refine (every_call _ _).mpr ⟨h, ?_⟩
  intro db
  exact every_ret _

theorem every_execute {inj : Violation → ε} {w : Write Row Patch Id} (h : A (.write w)) :
    Every A (execute inj w) := by
  refine (every_call _ _).mpr ⟨h, ?_⟩
  intro r
  cases r with
  | ok _ => exact every_ret _
  | error v => exact every_raise _

theorem every_perform_ext {e : Ext} (h : A (.ext e)) :
    Every A (perform_ext e : DbProg Row Patch Id Answer ε _) := by
  refine (every_call _ _).mpr ⟨h, ?_⟩
  intro a
  exact every_ret _

end every

end Framework
