import CounselReady.Framework.Integrity
import CounselReady.Framework.Run
import CounselReady.Framework.Transaction
import Mathlib.Data.List.Forall2

/-! # Transactions Side by Side

    Any number of programs run at once against one store, each as a READ
    COMMITTED transaction: every statement sees the rows committed at the moment
    it is executed, with the transaction's own writes done on top of them.

    * A transaction commits when its writes, redone on the rows committed by
      then, break no constraint. Otherwise it can only be rolled back.
    * There are no locks. What waiting for a row or for a unique index rules
      out is allowed here too: such an order of steps ends in a rollback, or in
      what the order with the waiting ends in.
    * A session of an ORM may hand out a row it has loaded before in the place
      of the one a SELECT finds. It is the same row by its key, perhaps an
      earlier version of it.

    `run_genuine` says what a transaction in flight owes to its program and to
    the rows it has met; a fact about commits is proved from it.
-/

namespace Framework

open Relational

variable {Table Id Ext : Type} {Row Patch : Table → Type} {Answer : Ext → Type}
  {ε α σ K : Type}

/-! ### Traces of a program -/

namespace Prog

variable {S : Signature}

/-- A call and its answer. -/
abbrev Exchange (S : Signature) := (o : S.Op) × S.Res o

/-- What is left of a program after the exchanges, latest first. -/
inductive Traced (p : Prog S ε α) : List (Exchange S) → Prog S ε α → Prop where
  | start : Traced p [] p
  | call {l : List (Exchange S)} {o : S.Op} {k : S.Res o → Prog S ε α} (r : S.Res o) :
      Traced p l (.call o k) → Traced p (⟨o, r⟩ :: l) (k r)

/-- The knowledge of an outline that remembers every exchange. -/
def remember (l : List (Exchange S)) (o : S.Op) (r : S.Res o) : List (Exchange S) := ⟨o, r⟩ :: l

variable {can : (o : S.Op) → S.Res o → Prop} {G : List (Exchange S) → S.Op → Prop}
  {Q : List (Exchange S) → α → Prop} {p q : Prog S ε α} {l : List (Exchange S)}

/-- An outline of a program is one of what is left of it. -/
theorem Traced.outline (h : Traced p l q) (hp : Outline remember can G Q [] p)
    (hcan : ∀ x ∈ l, can x.1 x.2) : Outline remember can G Q l q := by
  induction h with
  | start => exact hp
  | @call l o k r _ ih =>
    have hrest := ih fun x hx => hcan x (List.mem_cons_of_mem _ hx)
    exact hrest.2 r (hcan ⟨o, r⟩ List.mem_cons_self)

theorem Traced.course {E : List (Exchange S) → ε → Prop} (h : Traced p l q)
    (hp : Course remember can G Q E [] p) (hcan : ∀ x ∈ l, can x.1 x.2) :
    Course remember can G Q E l q := by
  induction h with
  | start => exact hp
  | @call l o k r _ ih =>
    have hrest := ih fun x hx => hcan x (List.mem_cons_of_mem _ hx)
    exact hrest.2 r (hcan ⟨o, r⟩ List.mem_cons_self)

/-- **Trace rule.** Each call was admitted by what had been exchanged before it. -/
theorem Traced.admitted (h : Traced p l q) (hp : Outline remember can G Q [] p)
    (hcan : ∀ x ∈ l, can x.1 x.2) {later earlier : List (Exchange S)} {x : Exchange S}
    (hl : l = later ++ x :: earlier) : G earlier x.1 := by
  induction h generalizing later with
  | start => simp at hl
  | @call l o k r hprev ih =>
    have hcan' : ∀ x ∈ l, can x.1 x.2 := fun x hx => hcan x (List.mem_cons_of_mem _ hx)
    cases later with
    | nil =>
      obtain ⟨rfl, rfl⟩ := List.cons.inj hl
      exact (hprev.outline hp hcan').1
    | cons y later =>
      obtain ⟨_, htail⟩ := List.cons.inj hl
      exact ih hcan' htail

/-- **Inversion.** What comes after the first call is a trace of what follows it. -/
theorem Traced.first {o : S.Op} {k : S.Res o → Prog S ε α} (h : Traced (.call o k) l q) :
    (l = [] ∧ q = .call o k) ∨ ∃ r later, l = later ++ [⟨o, r⟩] ∧ Traced (k r) later q := by
  induction h with
  | start => exact .inl ⟨rfl, rfl⟩
  | @call l o' k' r' _ ih =>
    right
    rcases ih with ⟨rfl, hsame⟩ | ⟨r, later, rfl, hrest⟩
    · cases hsame
      exact ⟨r', [], rfl, .start⟩
    · exact ⟨r, ⟨o', r'⟩ :: later, rfl, .call r' hrest⟩

theorem Traced.raised {e : ε} (h : Traced (.raise e) l q) : l = [] ∧ q = .raise e := by
  induction h with
  | start => exact ⟨rfl, rfl⟩
  | call r _ ih => cases ih.2

/-- A program that is confined makes permitted calls only. -/
theorem Traced.every {A : S.Op → Prop} (h : Traced p l q) (hp : Every A p) :
    (∀ x ∈ l, A x.1) ∧ Every A q := by
  induction h with
  | start => exact ⟨fun x hx => (List.not_mem_nil hx).elim, hp⟩
  | @call l o k r _ ih =>
    obtain ⟨hl, hrest⟩ := ih
    rw [every_call] at hrest
    refine ⟨?_, hrest.2 r⟩
    intro x hx
    rcases List.mem_cons.mp hx with rfl | hx
    · exact hrest.1
    · exact hl x hx

end Prog

/-! ### A transaction in flight -/

/-- A call of a transaction, its answer, and the rows committed at that moment. -/
structure Event (Row Patch : Table → Type) (Id : Type) {Ext : Type} (Answer : Ext → Type) where
  rows : Db Row
  op : Op Row Patch Id Ext
  res : Op.Res Answer op

/-- What is left of a transaction, and what it has done so far, latest first. -/
structure Flight (Row Patch : Table → Type) (Id : Type) {Ext : Type} (Answer : Ext → Type)
    (ε α K : Type) where
  job : K
  rest : DbProg Row Patch Id Answer ε α
  seen : List (Event Row Patch Id Answer)

def Event.exchange (e : Event Row Patch Id Answer) : Prog.Exchange (db_sig Row Patch Id Answer) :=
  ⟨e.op, e.res⟩

/-- The statements that were admitted, oldest first. -/
def wrote : List (Prog.Exchange (db_sig Row Patch Id Answer)) → List (Write Row Patch Id)
  | [] => []
  | ⟨.write w, (.ok _ : Except Violation Unit)⟩ :: earlier => wrote earlier ++ [w]
  | _ :: earlier => wrote earlier

def written (seen : List (Event Row Patch Id Answer)) : List (Write Row Patch Id) :=
  wrote (seen.map Event.exchange)

def Flight.log (f : Flight Row Patch Id Answer ε α K) : List (Write Row Patch Id) := written f.seen

theorem mem_wrote {l : List (Prog.Exchange (db_sig Row Patch Id Answer))}
    {w : Write Row Patch Id} (h : w ∈ wrote l) : ⟨.write w, .ok ()⟩ ∈ l := by
  induction l with
  | nil => cases h
  | cons x earlier ih =>
    unfold wrote at h
    split at h
    · cases ‹_ = _›
    · next heq =>
      obtain ⟨rfl, rfl⟩ := List.cons.inj heq
      rcases List.mem_append.mp h with hold | hlast
      · exact List.mem_cons_of_mem _ (ih hold)
      · obtain rfl := List.mem_singleton.mp hlast
        exact List.mem_cons_self
    · next heq =>
      obtain ⟨rfl, rfl⟩ := List.cons.inj heq
      exact List.mem_cons_of_mem _ (ih h)

/-- What is no statement writes nothing. -/
theorem wrote_quiet {l : List (Prog.Exchange (db_sig Row Patch Id Answer))}
    (h : ∀ x ∈ l, ∀ w, x.1 ≠ .write w) : wrote l = [] :=
  List.eq_nil_iff_forall_not_mem.mpr fun w hw => h _ (mem_wrote hw) w rfl

theorem wrote_selects {l : List (Prog.Exchange (db_sig Row Patch Id Answer))}
    (h : ∀ x ∈ l, ∃ t p, x.1 = .select t p) : wrote l = [] := by
  refine wrote_quiet fun x hx w hop => ?_
  obtain ⟨t, p, hselect⟩ := h x hx
  rw [hselect] at hop
  cases hop

theorem Event.eq_of_exchange {e : Event Row Patch Id Answer} {o : Op Row Patch Id Ext}
    {r : Op.Res Answer o} (h : e.exchange = ⟨o, r⟩) : e = ⟨e.rows, o, r⟩ := by
  obtain ⟨rows, o', r'⟩ := e
  cases h
  rfl

variable [DecidableEq Table] [DecidableEq Id]

/-- The rows of a table that the call has handed out. -/
def Event.handed (e : Event Row Patch Id Answer) (t : Table) : List (Row t) :=
  match e with
  | ⟨_, .select t' _, (rows : List (Row t'))⟩ => if h : t' = t then h ▸ rows else []
  | _ => []

section answers
variable (S : Schema Table Row Patch Id) (run_ext : (e : Ext) → σ → Answer e × σ)

/-- Statements done again, on rows that may have changed since; `none` when one of them
    breaks a constraint. -/
def redo : List (Write Row Patch Id) → Db Row → Option (Db Row)
  | [], db => some db
  | w :: ws, db =>
      match S.check db w with
      | some _ => none
      | none => redo ws (S.effect (S.resolve db w) db)

/-- The row handed out for the row found: that one, or an earlier copy of it. -/
def HandedFor (seen : List (Event Row Patch Id Answer)) {t : Table} (r' r : Row t) : Prop :=
  r' = r ∨ (S.pk t r' = S.pk t r ∧ ∃ e ∈ seen, r' ∈ e.handed t)

/-- How a transaction can be answered that has seen `seen`, when `db` is committed. -/
inductive Answers (db : Db Row) (ext : σ) (seen : List (Event Row Patch Id Answer)) :
    (o : Op Row Patch Id Ext) → Op.Res Answer o → σ → Prop where
  | select {t : Table} {p : Row t → Bool} {view : Db Row} {rows : List (Row t)}
      (sees : redo S (written seen) db = some view)
      (hands : List.Forall₂ (HandedFor S seen) rows ((view t).filter p)) :
      Answers db ext seen (.select t p) rows ext
  | snapshot {view : Db Row} (sees : redo S (written seen) db = some view) :
      Answers db ext seen .snapshot view ext
  | admitted {w : Write Row Patch Id} {view : Db Row}
      (sees : redo S (written seen) db = some view) (free : S.check view w = none) :
      Answers db ext seen (.write w) (.ok ()) ext
  | refused {w : Write Row Patch Id} {view : Db Row} {v : Violation}
      (sees : redo S (written seen) db = some view) (broken : S.check view w = some v) :
      Answers db ext seen (.write w) (.error v) ext
  /-- a lock timeout, a deadlock, a connection that is gone -/
  | lost {w : Write Row Patch Id} : Answers db ext seen (.write w) (.error .unavailable) ext
  | ext {e : Ext} : Answers db ext seen (.ext e) (run_ext e ext).1 (run_ext e ext).2

end answers

/-! ### The system -/

/-- The committed rows, the outside state, and the transactions in flight. -/
structure Shared (Row Patch : Table → Type) (Id : Type) {Ext : Type} (Answer : Ext → Type)
    (ε α σ K : Type) where
  db : Db Row
  ext : σ
  running : Nat → Option (Flight Row Patch Id Answer ε α K)

inductive Move (K : Type) where
  | begin (n : Nat) (job : K)
  | call (n : Nat)
  | commit (n : Nat)
  | abort (n : Nat)

/-- The slot `n` holds `f` from now on. -/
def Shared.put (s : Shared Row Patch Id Answer ε α σ K) (n : Nat)
    (f : Option (Flight Row Patch Id Answer ε α K)) : Nat → Option (Flight Row Patch Id Answer ε α K) :=
  fun m => if m = n then f else s.running m

omit [DecidableEq Table] [DecidableEq Id] in
@[simp] theorem Shared.put_self (s : Shared Row Patch Id Answer ε α σ K) (n : Nat)
    (f : Option (Flight Row Patch Id Answer ε α K)) : s.put n f n = f := if_pos rfl

omit [DecidableEq Table] [DecidableEq Id] in
@[simp] theorem Shared.put_ne (s : Shared Row Patch Id Answer ε α σ K) {n m : Nat}
    (f : Option (Flight Row Patch Id Answer ε α K)) (h : m ≠ n) : s.put n f m = s.running m :=
  if_neg h

/-- The transaction after a call it has made. -/
def Flight.after (f : Flight Row Patch Id Answer ε α K) (rows : Db Row) (o : Op Row Patch Id Ext)
    (k : Op.Res Answer o → DbProg Row Patch Id Answer ε α) (r : Op.Res Answer o) :
    Flight Row Patch Id Answer ε α K :=
  ⟨f.job, k r, ⟨rows, o, r⟩ :: f.seen⟩

section moves
variable (S : Schema Table Row Patch Id) (run_ext : (e : Ext) → σ → Answer e × σ)
  (prog : K → DbProg Row Patch Id Answer ε α)

inductive Moves (s : Shared Row Patch Id Answer ε α σ K) :
    Move K → Shared Row Patch Id Answer ε α σ K → Prop where
  | begin {n : Nat} (job : K) (free : s.running n = none) :
      Moves s (.begin n job) ⟨s.db, s.ext, s.put n (some ⟨job, prog job, []⟩)⟩
  | call {n : Nat} {f : Flight Row Patch Id Answer ε α K} {o : Op Row Patch Id Ext}
      {k : Op.Res Answer o → DbProg Row Patch Id Answer ε α} {r : Op.Res Answer o} {ext : σ}
      (flies : s.running n = some f) (calls : f.rest = .call o k)
      (answered : Answers S run_ext s.db s.ext f.seen o r ext) :
      Moves s (.call n) ⟨s.db, ext, s.put n (some (f.after s.db o k r))⟩
  | commit {n : Nat} {f : Flight Row Patch Id Answer ε α K} {a : α} {db : Db Row}
      (flies : s.running n = some f) (returned : f.rest = .ret a)
      (holds : redo S f.log s.db = some db) :
      Moves s (.commit n) ⟨db, s.ext, s.put n none⟩
  /-- a rollback, whatever the reason: an exception, a violation, a crash -/
  | abort {n : Nat} {f : Flight Row Patch Id Answer ε α K} (flies : s.running n = some f) :
      Moves s (.abort n) ⟨s.db, s.ext, s.put n none⟩

end moves

/-! ### Statements done again -/

section redo
variable {S : Schema Table Row Patch Id} {ws : List (Write Row Patch Id)} {db db' : Db Row}

theorem redo_cons {w : Write Row Patch Id} (h : redo S (w :: ws) db = some db') :
    S.check db w = none ∧ redo S ws (S.effect (S.resolve db w) db) = some db' := by
  unfold redo at h
  cases hchk : S.check db w with
  | some v =>
    rw [hchk] at h
    cases h
  | none =>
    rw [hchk] at h
    exact ⟨rfl, h⟩

/-- One statement more. -/
theorem redo_append {w : Write Row Patch Id} (h : redo S ws db = some db')
    (hfree : S.check db' w = none) :
    redo S (ws ++ [w]) db = some (S.effect (S.resolve db' w) db') := by
  induction ws generalizing db with
  | nil =>
    obtain rfl := Option.some.inj h
    show redo S [w] db = _
    simp only [redo, hfree]
  | cons w₀ ws ih =>
    obtain ⟨hchk, hrest⟩ := redo_cons h
    show redo S (w₀ :: (ws ++ [w])) db = _
    simp only [redo, hchk]
    exact ih hrest

/-- **Redo rule.** What each of the statements keeps, all of them keep. -/
theorem redo_invariant {J : Db Row → Prop} (h : redo S ws db = some db') (h0 : J db)
    (hstep : ∀ w ∈ ws, ∀ db, S.check db w = none → J db → J (S.effect (S.resolve db w) db)) :
    J db' := by
  induction ws generalizing db with
  | nil =>
    obtain rfl := Option.some.inj h
    exact h0
  | cons w ws ih =>
    obtain ⟨hchk, hrest⟩ := redo_cons h
    refine ih hrest (hstep w List.mem_cons_self db hchk h0) ?_
    intro w' hw'
    exact hstep w' (List.mem_cons_of_mem _ hw')

theorem redo_consistent (hS : S.Regular) (h : redo S ws db = some db') (hc : S.Consistent db) :
    S.Consistent db' :=
  redo_invariant h hc fun _ _ _ hchk hdb => Schema.consistent_admitted hS hdb hchk

end redo

/-! ### Answers -/

section answer_facts
variable {S : Schema Table Row Patch Id} {run_ext : (e : Ext) → σ → Answer e × σ}
  {db : Db Row} {ext ext' : σ} {seen : List (Event Row Patch Id Answer)}

/-- The call reads whole rows of the table. -/
def Event.reads (e : Event Row Patch Id Answer) (t : Table) : Bool :=
  match e.op with
  | .select t' _ => decide (t' = t)
  | _ => false

omit [DecidableEq Id] in
theorem Event.handed_select {db : Db Row} {t : Table} {p : Row t → Bool} {rows : List (Row t)} :
    (⟨db, .select t p, rows⟩ : Event Row Patch Id Answer).handed t = rows := dif_pos rfl

omit [DecidableEq Id] in
theorem Event.handed_of_not_reads {e : Event Row Patch Id Answer} {t : Table}
    (h : e.reads t = false) : e.handed t = [] := by
  obtain ⟨rows, o, r⟩ := e
  cases o with
  | select t' p =>
    have hne : t' ≠ t := by simpa [Event.reads] using h
    exact dif_neg hne
  | snapshot => rfl
  | write w => rfl
  | ext e => rfl

omit [DecidableEq Id] in
/-- **Inversion.** Rows are handed out by a SELECT on their table. -/
theorem Event.select_of_handed {e : Event Row Patch Id Answer} {t : Table} {r : Row t}
    (hr : r ∈ e.handed t) :
    ∃ p, ∃ rows : List (Row t), e.exchange = ⟨.select t p, rows⟩ ∧ r ∈ rows := by
  obtain ⟨db, o, res⟩ := e
  cases o with
  | select t' p =>
    by_cases ht : t' = t
    · subst ht
      have hhanded : Event.handed ⟨db, .select t' p, res⟩ t' = (res : List (Row t')) :=
        Event.handed_select
      rw [hhanded] at hr
      exact ⟨p, res, rfl, hr⟩
    · have hnone : Event.handed ⟨db, .select t' p, res⟩ t = [] := dif_neg ht
      rw [hnone] at hr
      cases hr
  | snapshot => cases hr
  | write w => cases hr
  | ext e => cases hr

/-- A row handed out has the key of a row that was asked for. -/
def Keyed (S : Schema Table Row Patch Id) : (o : Op Row Patch Id Ext) → Op.Res Answer o → Prop
  | .select t p, (rows : List _) => ∀ r' ∈ rows, ∃ r, S.pk t r = S.pk t r' ∧ p r = true
  | _, _ => True

theorem exists_of_forall₂ {β γ : Type} {R : β → γ → Prop} {l : List β} {m : List γ}
    (h : List.Forall₂ R l m) {b : β} (hb : b ∈ l) : ∃ c ∈ m, R b c := by
  induction h with
  | nil => cases hb
  | cons hR _ ih =>
    rcases List.mem_cons.mp hb with rfl | hb
    · exact ⟨_, List.mem_cons_self, hR⟩
    · obtain ⟨c, hc, hbc⟩ := ih hb
      exact ⟨c, List.mem_cons_of_mem _ hc, hbc⟩

/-- Each row handed out stands for a row found. -/
theorem Answers.found {t : Table} {p : Row t → Bool} {rows : List (Row t)}
    (h : Answers S run_ext db ext seen (.select t p) rows ext') (hlog : written seen = []) :
    ∀ r' ∈ rows, ∃ r ∈ db t, p r = true ∧ HandedFor S seen r' r := by
  cases h with
  | select sees hands =>
    intro r' hr'
    obtain ⟨r, hr, hhand⟩ := exists_of_forall₂ hands hr'
    rw [hlog] at sees
    obtain rfl := Option.some.inj sees
    obtain ⟨hr, hp⟩ := List.mem_filter.mp hr
    exact ⟨r, hr, hp, hhand⟩

/-- Each row found is handed out, in one version or another. -/
theorem Answers.covers {t : Table} {p : Row t → Bool} {rows : List (Row t)}
    (h : Answers S run_ext db ext seen (.select t p) rows ext') (hlog : written seen = []) :
    ∀ r ∈ db t, p r = true → ∃ r' ∈ rows, S.pk t r' = S.pk t r := by
  cases h with
  | select sees hands =>
    intro r hr hp
    rw [hlog] at sees
    obtain rfl := Option.some.inj sees
    obtain ⟨r', hr', hhand⟩ := exists_of_forall₂ hands.flip (List.mem_filter.mpr ⟨hr, hp⟩)
    refine ⟨r', hr', ?_⟩
    rcases hhand with rfl | ⟨hpk, _⟩
    · rfl
    · exact hpk

/-- The first SELECT on a table hands out the rows found, as they are. -/
theorem Answers.first {t : Table} {p : Row t → Bool} {rows : List (Row t)}
    (h : Answers S run_ext db ext seen (.select t p) rows ext') (hlog : written seen = [])
    (hfirst : ∀ e ∈ seen, e.reads t = false) : rows = (db t).filter p := by
  cases h with
  | select sees hands =>
    rw [hlog] at sees
    obtain rfl := Option.some.inj sees
    refine List.forall₂_eq_eq_eq ▸ hands.imp ?_
    intro r' r hhand
    rcases hhand with heq | ⟨_, e, he, hin⟩
    · exact heq
    · rw [Event.handed_of_not_reads (hfirst e he)] at hin
      cases hin

theorem Answers.keyed {o : Op Row Patch Id Ext} {r : Op.Res Answer o}
    (h : Answers S run_ext db ext seen o r ext') : Keyed S o r := by
  cases h with
  | select sees hands =>
    intro r' hr'
    obtain ⟨r, hr, hhand⟩ := exists_of_forall₂ hands hr'
    refine ⟨r, ?_, (List.mem_filter.mp hr).2⟩
    rcases hhand with rfl | ⟨hpk, _⟩
    · rfl
    · exact hpk.symm
  | snapshot sees => trivial
  | admitted sees free => trivial
  | refused sees broken => trivial
  | lost => trivial
  | ext => trivial

end answer_facts

/-! ### What a transaction owes -/

/-- The jobs begun so far. -/
def begun (past : List (Move K × Shared Row Patch Id Answer ε α σ K)) : List K :=
  past.filterMap (fun x => match x.1 with
    | .begin _ job => some job
    | _ => none)

/-- The transaction that the move commits. -/
def landed : Move K × Shared Row Patch Id Answer ε α σ K → Option (Flight Row Patch Id Answer ε α K)
  | (.commit n, s) => s.running n
  | _ => none

/-- The transactions committed so far, as they were when they returned, latest first. -/
def committed (past : List (Move K × Shared Row Patch Id Answer ε α σ K)) :
    List (Flight Row Patch Id Answer ε α K) := past.filterMap landed

/-- What is true of a transaction in flight: it follows its program, and every answer it
    has had was given on rows that were committed at some point of the run. -/
structure Genuine (S : Schema Table Row Patch Id) (run_ext : (e : Ext) → σ → Answer e × σ)
    (prog : K → DbProg Row Patch Id Answer ε α)
    (past : List (Move K × Shared Row Patch Id Answer ε α σ K))
    (f : Flight Row Patch Id Answer ε α K) : Prop where
  traced : Prog.Traced (prog f.job) (f.seen.map Event.exchange) f.rest
  answered : ∀ later e earlier, f.seen = later ++ e :: earlier →
    ∃ ext ext', Answers S run_ext e.rows ext earlier e.op e.res ext'
  dated : ∀ e ∈ f.seen, ∃ x ∈ past, x.2.db = e.rows
  begun : f.job ∈ begun past

section genuine
variable {S : Schema Table Row Patch Id} {run_ext : (e : Ext) → σ → Answer e × σ}
  {prog : K → DbProg Row Patch Id Answer ε α}
  {past : List (Move K × Shared Row Patch Id Answer ε α σ K)}
  {s s' : Shared Row Patch Id Answer ε α σ K} {f : Flight Row Patch Id Answer ε α K}

omit [DecidableEq Table] [DecidableEq Id] in
theorem begun_mono {x : Move K × Shared Row Patch Id Answer ε α σ K} {job : K}
    (h : job ∈ begun past) : job ∈ begun (x :: past) := by
  unfold begun at h ⊢
  rw [List.filterMap_cons]
  split
  · exact h
  · exact List.mem_cons_of_mem _ h

theorem Genuine.mono (h : Genuine S run_ext prog past f)
    (x : Move K × Shared Row Patch Id Answer ε α σ K) : Genuine S run_ext prog (x :: past) f where
  traced := h.traced
  answered := h.answered
  dated := by
    intro e he
    obtain ⟨y, hy, hdb⟩ := h.dated e he
    exact ⟨y, List.mem_cons_of_mem _ hy, hdb⟩
  begun := begun_mono h.begun

/-- One more call. -/
theorem Genuine.call (h : Genuine S run_ext prog past f) {m : Move K} {o : Op Row Patch Id Ext}
    {k : Op.Res Answer o → DbProg Row Patch Id Answer ε α} {r : Op.Res Answer o} {ext : σ}
    (hcalls : f.rest = .call o k) (hanswered : Answers S run_ext s.db s.ext f.seen o r ext) :
    Genuine S run_ext prog ((m, s) :: past) (f.after s.db o k r) where
  traced := Prog.Traced.call r (hcalls ▸ h.traced)
  answered := by
    intro later e earlier hseen
    cases later with
    | nil =>
      obtain ⟨rfl, rfl⟩ := List.cons.inj hseen
      exact ⟨s.ext, ext, hanswered⟩
    | cons e' later => exact h.answered later e earlier (List.cons.inj hseen).2
  dated := by
    intro e he
    rcases List.mem_cons.mp he with rfl | hold
    · exact ⟨(m, s), List.mem_cons_self, rfl⟩
    · exact (h.mono (m, s)).dated e hold
  begun := begun_mono h.begun

/-- **Inversion.** What a slot holds after a move: what it held, or the transaction the move
    begins, or the one whose call it answers. -/
theorem Moves.running {m : Move K} (h : Moves S run_ext prog s m s') {n : Nat}
    (hf : s'.running n = some f) : s.running n = some f ∨
      (∃ job, m = .begin n job ∧ f = ⟨job, prog job, []⟩) ∨
      ∃ f₀ o k r ext, s.running n = some f₀ ∧ f₀.rest = .call o k ∧
        Answers S run_ext s.db s.ext f₀.seen o r ext ∧ f = f₀.after s.db o k r := by
  have hother : ∀ n' f', n ≠ n' → s.put n' f' n = some f → s.running n = some f := by
    intro n' f' hne hput
    rwa [Shared.put_ne s _ hne] at hput
  have hgone : ∀ n', s.put n' none n = some f → s.running n = some f := by
    intro n' hput
    by_cases hn : n = n'
    · subst hn
      rw [Shared.put_self] at hput
      cases hput
    · exact hother n' none hn hput
  cases h with
  | @begin n' job free =>
    by_cases hn : n = n'
    · subst hn
      have hput : s.put n (some ⟨job, prog job, []⟩) n = some f := hf
      rw [Shared.put_self] at hput
      exact .inr (.inl ⟨job, rfl, (Option.some.inj hput).symm⟩)
    · exact .inl (hother n' _ hn hf)
  | @call n' f₀ o k r ext flies calls answered =>
    by_cases hn : n = n'
    · subst hn
      have hput : s.put n (some (f₀.after s.db o k r)) n = some f := hf
      rw [Shared.put_self] at hput
      exact .inr (.inr ⟨f₀, o, k, r, ext, flies, calls, answered, (Option.some.inj hput).symm⟩)
    · exact .inl (hother n' _ hn hf)
  | commit flies returned holds => exact .inl (hgone _ hf)
  | abort flies => exact .inl (hgone _ hf)

/-- **Inversion.** The rows and the commits after a move: those from before, or those of the
    transaction that it commits. -/
theorem Moves.commits (past : List (Move K × Shared Row Patch Id Answer ε α σ K)) {m : Move K}
    (h : Moves S run_ext prog s m s') :
    (s'.db = s.db ∧ committed ((m, s) :: past) = committed past) ∨
      ∃ n g a, m = .commit n ∧ s.running n = some g ∧ g.rest = .ret a ∧
        redo S g.log s.db = some s'.db ∧ committed ((m, s) :: past) = g :: committed past := by
  cases h with
  | begin job free => exact .inl ⟨rfl, rfl⟩
  | call flies calls answered => exact .inl ⟨rfl, rfl⟩
  | abort flies => exact .inl ⟨rfl, rfl⟩
  | @commit n g a db flies returned holds =>
    exact .inr ⟨n, g, a, rfl, flies, returned, holds, List.filterMap_cons_some flies⟩

/-- A commit empties its slot, and no other. -/
theorem Moves.after_commit {k n : Nat} (h : Moves S run_ext prog s (.commit k) s')
    (hf : s'.running n = some f) : n ≠ k ∧ s.running n = some f := by
  cases h with
  | commit flies returned holds =>
    have hput : s.put k none n = some f := hf
    by_cases hn : n = k
    · rw [hn, Shared.put_self] at hput
      cases hput
    · rw [Shared.put_ne s none hn] at hput
      exact ⟨hn, hput⟩

/-- **Run rule.** Every transaction is genuine, in flight and when it commits. -/
theorem run_genuine {may : List (Move K × Shared Row Patch Id Answer ε α σ K) →
      Shared Row Patch Id Answer ε α σ K → Move K → Prop} {s₀ : Shared Row Patch Id Answer ε α σ K}
    (hr : Run (Moves S run_ext prog) may s₀ past s) (h0 : ∀ n, s₀.running n = none) :
    (∀ n f, s.running n = some f → Genuine S run_ext prog past f) ∧
      ∀ f ∈ committed past, Genuine S run_ext prog past f ∧ ∃ a, f.rest = .ret a := by
  refine hr.invariant (I := fun past s =>
    (∀ n f, s.running n = some f → Genuine S run_ext prog past f) ∧
      ∀ f ∈ committed past, Genuine S run_ext prog past f ∧ ∃ a, f.rest = .ret a) ?_ ?_
  · refine ⟨fun n f hf => ?_, fun f hf => (List.not_mem_nil hf).elim⟩
    rw [h0] at hf
    cases hf
  · rintro past s m s' _ ⟨hflies, hdone⟩ _ hmove
    constructor
    · intro n f hf
      rcases hmove.running hf with hold | ⟨job, rfl, rfl⟩ |
        ⟨f₀, o, k, r, ext, hf₀, hcalls, hanswered, rfl⟩
      · exact (hflies n f hold).mono _
      · refine ⟨.start, ?_, ?_, List.mem_cons_self⟩
        · intro later e earlier hseen
          simp at hseen
        · intro e he
          cases he
      · exact (hflies n f₀ hf₀).call hcalls hanswered
    · intro f hf
      rcases hmove.commits past with ⟨_, hsame⟩ | ⟨n, g, a, rfl, hg, hret, _, hnew⟩
      · rw [hsame] at hf
        exact ⟨(hdone f hf).1.mono _, (hdone f hf).2⟩
      · rw [hnew] at hf
        rcases List.mem_cons.mp hf with rfl | hf
        · exact ⟨(hflies n f hg).mono _, a, hret⟩
        · exact ⟨(hdone f hf).1.mono _, (hdone f hf).2⟩

/-- The exchanges of a genuine transaction are within what an outline may count on. -/
theorem Genuine.keyed (h : Genuine S run_ext prog past f) :
    ∀ x ∈ f.seen.map Event.exchange, Keyed S x.1 x.2 := by
  intro x hx
  obtain ⟨e, he, rfl⟩ := List.mem_map.mp hx
  obtain ⟨later, earlier, hseen⟩ := List.append_of_mem he
  obtain ⟨ext, ext', hanswer⟩ := h.answered later e earlier hseen
  exact hanswer.keyed

/-- The first SELECT on a table, when nothing has been written before it, finds what is
    committed. -/
theorem Genuine.first_select (h : Genuine S run_ext prog past f) {t : Table} {p : Row t → Bool}
    {rows : List (Row t)} {later before : List (Prog.Exchange (db_sig Row Patch Id Answer))}
    (htrace : f.seen.map Event.exchange = later ++ ⟨.select t p, rows⟩ :: before)
    (hbefore : ∀ x ∈ before, ∃ t' p', x.1 = .select t' p' ∧ t' ≠ t) :
    ∃ e ∈ f.seen, e.op = .select t p ∧ e.handed t = rows ∧ rows = (e.rows t).filter p := by
  obtain ⟨later', rest, hseen, _, hrest⟩ := List.map_eq_append_iff.mp htrace
  obtain ⟨e, earlier, rfl, hexchange, rfl⟩ := List.map_eq_cons_iff.mp hrest
  have he := Event.eq_of_exchange hexchange
  obtain ⟨ext, ext', hanswers⟩ := h.answered later' e earlier hseen
  rw [he] at hanswers
  -- what came before are SELECTs on other tables
  have hkind : ∀ e' ∈ earlier, ∃ t' p', e'.op = .select t' p' ∧ t' ≠ t :=
    fun e' he' => hbefore _ (List.mem_map_of_mem he')
  have hlog : written earlier = [] := wrote_selects fun x hx => by
    obtain ⟨t', p', hop, _⟩ := hbefore x hx
    exact ⟨t', p', hop⟩
  have hfirst : ∀ e' ∈ earlier, e'.reads t = false := by
    intro e' he'
    obtain ⟨t', p', hop, hne⟩ := hkind e' he'
    unfold Event.reads
    rw [hop]
    exact decide_eq_false hne
  refine ⟨e, by rw [hseen]; exact List.mem_append_right _ List.mem_cons_self, ?_, ?_, ?_⟩
  · rw [he]
  · rw [he]
    exact Event.handed_select
  · exact hanswers.first hlog hfirst

/-- The first SELECT on a table finds rows that are committed, when nothing has been written
    before it but deletes. -/
theorem Genuine.first_found (h : Genuine S run_ext prog past f) {t : Table} (ht : S.Rigid t)
    {p : Row t → Bool} {rows : List (Row t)}
    {later before : List (Prog.Exchange (db_sig Row Patch Id Answer))}
    (htrace : f.seen.map Event.exchange = later ++ ⟨.select t p, rows⟩ :: before)
    (hreads : ∀ x ∈ before, ∀ p', x.1 ≠ .select t p')
    (hwrites : ∀ x ∈ before, ∀ w, x.1 = .write w → ∃ t' id, w = .delete t' id) :
    ∃ e ∈ f.seen, e.handed t = rows ∧ ∀ r ∈ rows, r ∈ e.rows t := by
  obtain ⟨later', rest, hseen, _, hrest⟩ := List.map_eq_append_iff.mp htrace
  obtain ⟨e, earlier, rfl, hexchange, rfl⟩ := List.map_eq_cons_iff.mp hrest
  have he := Event.eq_of_exchange hexchange
  obtain ⟨ext, ext', hanswers⟩ := h.answered later' e earlier hseen
  rw [he] at hanswers
  have hin : e ∈ f.seen := by
    rw [hseen]
    exact List.mem_append_right _ List.mem_cons_self
  have hhanded : e.handed t = rows := by
    rw [he]
    exact Event.handed_select
  refine ⟨e, hin, hhanded, fun r hr => ?_⟩
  cases hanswers with
  | @select _ _ view _ sees hands =>
    obtain ⟨r', hr', hfor⟩ := exists_of_forall₂ hands hr
    -- the table is new to the session
    have hsame : r = r' := by
      rcases hfor with heq | ⟨_, e', he', hin'⟩
      · exact heq
      · obtain ⟨p', rows', hexchange', _⟩ := Event.select_of_handed hin'
        refine absurd ?_ (hreads e'.exchange (List.mem_map_of_mem he') p')
        rw [hexchange']
    rw [hsame]
    -- deletes bring nothing new
    refine redo_invariant (J := fun db => ∀ r ∈ db t, r ∈ e.rows t) sees (fun _ h => h) ?_ r'
      (List.mem_filter.mp hr').1
    intro w hw db _ hdb r'' hr''
    obtain ⟨t', id, rfl⟩ := hwrites _ (mem_wrote hw) w rfl
    rcases Schema.mem_effect_resolve ht hr'' with hold | hinsert | ⟨_, _, _, _, hupdate, _⟩
    · exact hdb r'' hold
    · cases hinsert
    · cases hupdate

/-- A SELECT before anything is written hands out the rows that are committed, in one version
    or another. -/
theorem Genuine.select_stands (h : Genuine S run_ext prog past f) {t : Table}
    {p : Row t → Bool} {rows : List (Row t)}
    {later before : List (Prog.Exchange (db_sig Row Patch Id Answer))}
    (htrace : f.seen.map Event.exchange = later ++ ⟨.select t p, rows⟩ :: before)
    (hbefore : ∀ x ∈ before, ∃ t' p', x.1 = .select t' p') :
    ∃ e ∈ f.seen, e.op = .select t p ∧
      (∀ r' ∈ rows, ∃ r ∈ e.rows t, p r = true ∧ S.pk t r = S.pk t r') ∧
      ∀ r ∈ e.rows t, p r = true → ∃ r' ∈ rows, S.pk t r' = S.pk t r := by
  obtain ⟨later', rest, hseen, rfl, hrest⟩ := List.map_eq_append_iff.mp htrace
  obtain ⟨e, earlier, rfl, hexchange, rfl⟩ := List.map_eq_cons_iff.mp hrest
  have he := Event.eq_of_exchange hexchange
  obtain ⟨ext, ext', hanswers⟩ := h.answered later' e earlier hseen
  rw [he] at hanswers
  have hlog : written earlier = [] := wrote_selects hbefore
  refine ⟨e, ?_, ?_, fun r' hr' => ?_, hanswers.covers hlog⟩
  · rw [hseen]
    exact List.mem_append_right _ List.mem_cons_self
  · rw [he]
  · obtain ⟨r, hr, hp, hfor⟩ := hanswers.found hlog r' hr'
    refine ⟨r, hr, hp, ?_⟩
    rcases hfor with rfl | ⟨hpk, _⟩
    · rfl
    · exact hpk.symm

/-- Whatever is handed out before anything is written was committed at one call or another.
    The induction is on the calls before. -/
theorem Genuine.handed_committed (h : Genuine S run_ext prog past f) {t : Table}
    {p : Row t → Bool} {rows : List (Row t)}
    {later before : List (Prog.Exchange (db_sig Row Patch Id Answer))}
    (htrace : f.seen.map Event.exchange = later ++ ⟨.select t p, rows⟩ :: before)
    (hbefore : ∀ x ∈ before, ∃ t' p', x.1 = .select t' p') {r : Row t} (hr : r ∈ rows) :
    ∃ e ∈ f.seen, r ∈ e.rows t := by
  induction hn : before.length using Nat.strongRecOn generalizing p rows later before with
  | ind n ih =>
    obtain ⟨later', rest, hseen, rfl, hrest⟩ := List.map_eq_append_iff.mp htrace
    obtain ⟨e, earlier, rfl, hexchange, rfl⟩ := List.map_eq_cons_iff.mp hrest
    have he := Event.eq_of_exchange hexchange
    obtain ⟨ext, ext', hanswers⟩ := h.answered later' e earlier hseen
    rw [he] at hanswers
    obtain ⟨r₀, hr₀, _, hfor⟩ := hanswers.found (wrote_selects hbefore) r hr
    rcases hfor with rfl | ⟨_, e', he', hin⟩
    · refine ⟨e, ?_, hr₀⟩
      rw [hseen]
      exact List.mem_append_right _ List.mem_cons_self
    · -- it is an earlier copy
      obtain ⟨p', rows', hexchange', hin'⟩ := Event.select_of_handed hin
      obtain ⟨between, earlier', rfl⟩ := List.append_of_mem he'
      have hsplit : f.seen.map Event.exchange = (later' ++ e :: between).map Event.exchange ++
          ⟨.select t p', rows'⟩ :: earlier'.map Event.exchange := by
        rw [hseen, ← hexchange', ← List.map_cons, ← List.map_append, List.append_assoc]
        rfl
      have hshorter : (earlier'.map Event.exchange).length < n := by
        rw [← hn, List.map_append, List.map_cons, List.length_append, List.length_cons]
        omega
      refine ih _ hshorter hsplit (fun x hx => hbefore x ?_) hin' rfl
      rw [List.map_append, List.map_cons]
      exact List.mem_append_right _ (List.mem_cons_of_mem _ hx)

/-! ### Invariants of runs -/

section runs
variable {may : List (Move K × Shared Row Patch Id Answer ε α σ K) →
    Shared Row Patch Id Answer ε α σ K → Move K → Prop} {s₀ : Shared Row Patch Id Answer ε α σ K}

theorem run_consistent (hS : S.Regular) (hr : Run (Moves S run_ext prog) may s₀ past s)
    (h0 : S.Consistent s₀.db) : S.Consistent s.db := by
  refine hr.invariant (I := fun _ s => S.Consistent s.db) h0 ?_
  rintro past s m s' _ hc _ hmove
  rcases hmove.commits past with ⟨hdb, _⟩ | ⟨_, _, _, _, _, _, hredo, _⟩
  · rw [hdb]
    exact hc
  · exact redo_consistent hS hredo hc

/-- The slot was taken by the step `x` or a later one. -/
def TakenSince (n : Nat) (x : Move K × Shared Row Patch Id Answer ε α σ K)
    (later : List (Move K × Shared Row Patch Id Answer ε α σ K)) : Prop :=
  ∃ y ∈ x :: later, ∃ job, y.1 = .begin n job

/-- **Since rule.** A transaction is answered on rows that were committed after it began. -/
theorem run_since (hr : Run (Moves S run_ext prog) may s₀ past s) (h0 : ∀ n, s₀.running n = none)
    {n : Nat} (hf : s.running n = some f)
    {later earlier : List (Move K × Shared Row Patch Id Answer ε α σ K)}
    {x : Move K × Shared Row Patch Id Answer ε α σ K} (hpast : past = later ++ x :: earlier)
    (htaken : TakenSince n x later) : ∀ e ∈ f.seen, ∃ y ∈ later, y.2.db = e.rows := by
  let I : List (Move K × Shared Row Patch Id Answer ε α σ K) →
      Shared Row Patch Id Answer ε α σ K → Prop := fun past s =>
    ∀ n f, s.running n = some f → ∀ later x earlier, past = later ++ x :: earlier →
      TakenSince n x later → ∀ e ∈ f.seen, ∃ y ∈ later, y.2.db = e.rows
  have hI : I past s := by
    refine hr.invariant (I := I) ?_ ?_
    · intro n f hf
      rw [h0] at hf
      cases hf
    · intro past s m s' _ ih _ hmove n f hf later x earlier hpast htaken e he
      -- the transaction was there before the move, so that the move is not its begin
      obtain ⟨f₀, hf₀, hseen⟩ : ∃ f₀, s.running n = some f₀ ∧
          ∀ e ∈ f.seen, e ∈ f₀.seen ∨ e.rows = s.db := by
        rcases hmove.running hf with hold | ⟨job, _, rfl⟩ | ⟨f₀, o, k, r, ext, hf₀, _, _, rfl⟩
        · exact ⟨f, hold, fun _ he => .inl he⟩
        · cases he
        · refine ⟨f₀, hf₀, fun e he => ?_⟩
          rcases List.mem_cons.mp he with rfl | hold
          · exact .inr rfl
          · exact .inl hold
      have hnot : ∀ job, m ≠ .begin n job := by
        rintro job rfl
        cases hmove with
        | begin _ free =>
          rw [hf₀] at free
          cases free
      cases later with
      | nil =>
        obtain ⟨y, hy, job, hjob⟩ := htaken
        obtain rfl := List.mem_singleton.mp hy
        obtain ⟨rfl, _⟩ := List.cons.inj hpast
        exact absurd hjob (hnot job)
      | cons z later =>
        obtain ⟨rfl, htail⟩ := List.cons.inj hpast
        rcases hseen e he with hold | hrows
        · have htaken' : TakenSince n x later := by
            obtain ⟨y, hy, job, hjob⟩ := htaken
            rcases List.mem_cons.mp hy with rfl | hy
            · exact ⟨y, List.mem_cons_self, job, hjob⟩
            · rcases List.mem_cons.mp hy with rfl | hy
              · exact absurd hjob (hnot job)
              · exact ⟨y, List.mem_cons_of_mem x hy, job, hjob⟩
          obtain ⟨y, hy, hdb⟩ := ih n f₀ hf₀ later x earlier htail htaken' e hold
          exact ⟨y, List.mem_cons_of_mem _ hy, hdb⟩
        · exact ⟨_, List.mem_cons_self, hrows.symm⟩
  exact hI n f hf later x earlier hpast htaken

/-- No two transactions of the run have drawn the same. -/
structure Apart {β : Type} (key : K → β)
    (past : List (Move K × Shared Row Patch Id Answer ε α σ K))
    (s : Shared Row Patch Id Answer ε α σ K) : Prop where
  flying : ∀ n f m g, s.running n = some f → s.running m = some g → n ≠ m → key f.job ≠ key g.job
  landed : ∀ n f, s.running n = some f → ∀ g ∈ committed past, key g.job ≠ key f.job
  committed : (committed past).Pairwise (fun f g => key f.job ≠ key g.job)

theorem Moves.job {m : Move K} (h : Moves S run_ext prog s m s') {n : Nat}
    (hf : s'.running n = some f) :
    (∃ f₀, s.running n = some f₀ ∧ f₀.job = f.job) ∨ m = .begin n f.job := by
  rcases h.running hf with hold | ⟨job, rfl, rfl⟩ | ⟨f₀, _, _, _, _, hf₀, _, _, rfl⟩
  · exact .inl ⟨f, hold, rfl⟩
  · exact .inr rfl
  · exact .inl ⟨f₀, hf₀, rfl⟩

/-- **Freshness rule.** What is drawn afresh at every begin stays apart. -/
theorem run_apart {β : Type} {key : K → β} (hr : Run (Moves S run_ext prog) may s₀ past s)
    (h0 : ∀ n, s₀.running n = none)
    (hfresh : ∀ past s n job, may past s (.begin n job) → ∀ j ∈ begun past, key j ≠ key job) :
    Apart key past s := by
  refine hr.invariant (I := Apart key) ?_ ?_
  · refine ⟨fun n f m g hf => ?_, fun n f hf => ?_, List.Pairwise.nil⟩
    all_goals
      rw [h0] at hf
      cases hf
  · rintro past s m s' hrun hap hmay hmove
    obtain ⟨hflies, hdone⟩ := run_genuine hrun h0
    constructor
    · intro n f n' g hf hg hne
      -- two in flight: each was there before the move, or is begun by it
      rcases hmove.job hf with ⟨f₀, hf₀, hfj⟩ | rfl
      · rcases hmove.job hg with ⟨g₀, hg₀, hgj⟩ | rfl
        · rw [← hfj, ← hgj]
          exact hap.flying n f₀ n' g₀ hf₀ hg₀ hne
        · rw [← hfj]
          exact hfresh past s n' g.job hmay f₀.job (hflies n f₀ hf₀).begun
      · rcases hmove.job hg with ⟨g₀, hg₀, hgj⟩ | hbegin
        · rw [← hgj]
          exact (hfresh past s n f.job hmay g₀.job (hflies n' g₀ hg₀).begun).symm
        · exact absurd (Move.begin.inj hbegin).1 hne
    · intro n f hf g hg
      -- one in flight and one committed: the move may be the begin of the one or the commit of the
      -- other
      rcases hmove.commits past with ⟨_, hsame⟩ | ⟨n', g', _, rfl, hg', _, _, hnew⟩
      · rw [hsame] at hg
        rcases hmove.job hf with ⟨f₀, hf₀, hfj⟩ | rfl
        · rw [← hfj]
          exact hap.landed n f₀ hf₀ g hg
        · exact hfresh past s n f.job hmay g.job (hdone g hg).1.begun
      · rcases hmove.job hf with ⟨f₀, hf₀, hfj⟩ | hbegin
        · rw [← hfj]
          rw [hnew] at hg
          rcases List.mem_cons.mp hg with rfl | hg
          · -- the slot of the commit is empty now
            exact hap.flying n' g n f₀ hg' hf₀ (hmove.after_commit hf).1.symm
          · exact hap.landed n f₀ hf₀ g hg
        · cases hbegin
    · rcases hmove.commits past with ⟨_, hsame⟩ | ⟨n', g', _, _, hg', _, _, hnew⟩
      · rw [hsame]
        exact hap.committed
      · rw [hnew]
        exact List.pairwise_cons.mpr
          ⟨fun g hg => (hap.landed n' g' hg' g hg).symm, hap.committed⟩

end runs

end genuine

/-! ### Running alone

    While the others stand still, a transaction meets what a request served alone
    meets: its calls are answered by `perform`. -/

section alone
variable {S : Schema Table Row Patch Id} {run_ext : (e : Ext) → σ → Answer e × σ}
  {prog : K → DbProg Row Patch Id Answer ε α}
  {may : List (Move K × Shared Row Patch Id Answer ε α σ K) →
    Shared Row Patch Id Answer ε α σ K → Move K → Prop}
  {s₀ s : Shared Row Patch Id Answer ε α σ K}
  {past : List (Move K × Shared Row Patch Id Answer ε α σ K)}

omit [DecidableEq Table] [DecidableEq Id] in
/-- The last to be put into a slot is what it holds. -/
theorem put_put (s : Shared Row Patch Id Answer ε α σ K) (db : Db Row) (ext : σ) (n : Nat)
    (f g : Option (Flight Row Patch Id Answer ε α K)) :
    (⟨db, ext, s.put n f⟩ : Shared Row Patch Id Answer ε α σ K).put n g = s.put n g := by
  funext m
  by_cases hm : m = n
  · rw [hm, Shared.put_self, Shared.put_self]
  · rw [Shared.put_ne _ _ hm, Shared.put_ne s _ hm]
    exact Shared.put_ne s f hm

/-- With no fault pending, `perform` gives one of the answers a transaction can have. -/
theorem perform_answers {db view : Db Row} {ext : σ} {seen : List (Event Row Patch Id Answer)}
    (hview : redo S (written seen) db = some view) (o : Op Row Patch Id Ext) :
    ∃ r view' ext', perform S run_ext o ⟨view, ext, []⟩ = (r, ⟨view', ext', []⟩) ∧
      Answers S run_ext db ext seen o r ext' ∧
      redo S (written (⟨db, o, r⟩ :: seen)) db = some view' := by
  cases o with
  | select t p =>
    have hands : Answers S run_ext db ext seen (.select t p) ((view t).filter p) ext :=
      .select hview (List.forall₂_same.mpr fun _ _ => .inl rfl)
    exact ⟨_, view, ext, rfl, hands, hview⟩
  | snapshot => exact ⟨view, view, ext, rfl, .snapshot hview, hview⟩
  | ext e => exact ⟨_, view, _, rfl, .ext, hview⟩
  | write w =>
    have hperform : (perform S run_ext (.write w) ⟨view, ext, []⟩ :
        Op.Res Answer (.write w : Op Row Patch Id Ext) × Tx Row σ) =
          ((S.attempt w view).1, ⟨(S.attempt w view).2, ext, []⟩) := rfl
    unfold Schema.attempt at hperform
    cases hchk : S.check view w with
    | some v =>
      rw [hchk] at hperform
      exact ⟨_, view, ext, hperform, .refused hview hchk, hview⟩
    | none =>
      rw [hchk] at hperform
      exact ⟨_, _, ext, hperform, .admitted hview hchk, redo_append hview hchk⟩

/-- **Running alone.** When what is left of a transaction returns, as `perform` answers
    it, there is a run in which it gets there while the others stand still. -/
theorem run_alone {n : Nat} {job : K} {rest : DbProg Row Patch Id Answer ε α}
    {seen : List (Event Row Patch Id Answer)} {view : Db Row} {a : α} {t : Tx Row σ}
    (hr : Run (Moves S run_ext prog) may s₀ past s) (hmay : ∀ past s, may past s (.call n))
    (hflies : s.running n = some ⟨job, rest, seen⟩) (hview : redo S (written seen) s.db = some view)
    (hexec : rest.exec (perform S run_ext) ⟨view, s.ext, []⟩ = (.ok a, t)) :
    ∃ past' seen', Run (Moves S run_ext prog) may s₀ past'
        ⟨s.db, t.ext, s.put n (some ⟨job, .ret a, seen'⟩)⟩ ∧
      (committed past' = committed past ∧ begun past' = begun past) ∧
      redo S (written seen') s.db = some t.db ∧ ∀ e ∈ seen', e ∈ seen ∨ e.rows = s.db := by
  induction rest generalizing s past seen view with
  | ret a' =>
    obtain ⟨ha, rfl⟩ := Prod.mk.inj hexec
    obtain rfl := Except.ok.inj ha
    refine ⟨past, seen, ?_, ⟨rfl, rfl⟩, hview, fun e he => .inl he⟩
    have hsame : s.put n (some ⟨job, .ret a', seen⟩) = s.running := by
      funext m
      by_cases hm : m = n
      · rw [hm, Shared.put_self, hflies]
      · rw [Shared.put_ne s _ hm]
    rw [hsame]
    exact hr
  | raise e => cases (Prod.mk.inj hexec).1
  | call o k ih =>
    -- the answer it gets is one the move may give, and `view` goes on as its rows
    obtain ⟨r, view', ext', hperform, hanswers, hview'⟩ := perform_answers hview o
    have hrun := hr.next (.call n) (hmay _ _) (.call hflies rfl hanswers)
    rw [Prog.exec, hperform] at hexec
    obtain ⟨past', seen', hr', hsame, hredo, hseen⟩ :=
      ih _ hrun (Shared.put_self s n _) hview' hexec
    refine ⟨past', seen', ?_, hsame, hredo, fun e he => ?_⟩
    · rwa [put_put] at hr'
    · rcases hseen e he with hlast | hrows
      · rcases List.mem_cons.mp hlast with rfl | hold
        · exact .inr rfl
        · exact .inl hold
      · exact .inr hrows

end alone

/-! ### Playing a script

    One way to answer every call: the rows as they are found, and no statement lost. -/

section play
variable (S : Schema Table Row Patch Id) (run_ext : (e : Ext) → σ → Answer e × σ)
  (prog : K → DbProg Row Patch Id Answer ε α)

def plain_answer (db : Db Row) (ext : σ) (seen : List (Event Row Patch Id Answer)) :
    (o : Op Row Patch Id Ext) → Option (Op.Res Answer o × σ)
  | .select t p => (redo S (written seen) db).map (fun view => ((view t).filter p, ext))
  | .snapshot => (redo S (written seen) db).map (fun view => (view, ext))
  | .write w => (redo S (written seen) db).map (fun view => (match S.check view w with
      | some v => .error v
      | none => .ok (), ext))
  | .ext e => some (run_ext e ext)

/-- The move, when it can be made. -/
def advance (m : Move K) (s : Shared Row Patch Id Answer ε α σ K) :
    Option (Shared Row Patch Id Answer ε α σ K) :=
  match m with
  | .begin n job =>
      match s.running n with
      | some _ => none
      | none => some ⟨s.db, s.ext, s.put n (some ⟨job, prog job, []⟩)⟩
  | .call n =>
      match s.running n with
      | some ⟨job, .call o k, seen⟩ =>
          (plain_answer S run_ext s.db s.ext seen o).map (fun x =>
            ⟨s.db, x.2, s.put n (some ⟨job, k x.1, ⟨s.db, o, x.1⟩ :: seen⟩)⟩)
      | _ => none
  | .commit n =>
      match s.running n with
      | some ⟨_, .ret _, seen⟩ =>
          (redo S (written seen) s.db).map (fun db => ⟨db, s.ext, s.put n none⟩)
      | _ => none
  | .abort n =>
      match s.running n with
      | some _ => some ⟨s.db, s.ext, s.put n none⟩
      | none => none

variable {S run_ext prog} {s s' : Shared Row Patch Id Answer ε α σ K}

theorem plain_answers {db : Db Row} {ext ext' : σ} {seen : List (Event Row Patch Id Answer)}
    {o : Op Row Patch Id Ext} {r : Op.Res Answer o}
    (h : plain_answer S run_ext db ext seen o = some (r, ext')) :
    Answers S run_ext db ext seen o r ext' := by
  cases o with
  | select t p =>
    obtain ⟨view, hview, heq⟩ := Option.map_eq_some_iff.mp h
    obtain ⟨rfl, rfl⟩ := Prod.mk.inj heq
    exact .select hview (List.forall₂_same.mpr fun _ _ => .inl rfl)
  | snapshot =>
    obtain ⟨view, hview, heq⟩ := Option.map_eq_some_iff.mp h
    obtain ⟨rfl, rfl⟩ := Prod.mk.inj heq
    exact .snapshot hview
  | write w =>
    obtain ⟨view, hview, heq⟩ := Option.map_eq_some_iff.mp h
    cases hchk : S.check view w with
    | some v =>
      rw [hchk] at heq
      obtain ⟨rfl, rfl⟩ := Prod.mk.inj heq
      exact .refused hview hchk
    | none =>
      rw [hchk] at heq
      obtain ⟨rfl, rfl⟩ := Prod.mk.inj heq
      exact .admitted hview hchk
  | ext e =>
    obtain ⟨rfl, rfl⟩ := Prod.mk.inj (Option.some.inj h)
    exact .ext

theorem advance_moves {m : Move K} (h : advance S run_ext prog m s = some s') :
    Moves S run_ext prog s m s' := by
  cases m with
  | begin n job =>
    unfold advance at h
    dsimp only at h
    cases hn : s.running n with
    | some f =>
      rw [hn] at h
      cases h
    | none =>
      rw [hn] at h
      obtain rfl := Option.some.inj h
      exact .begin job hn
  | call n =>
    unfold advance at h
    dsimp only at h
    match hn : s.running n with
    | none =>
      rw [hn] at h
      cases h
    | some ⟨job, .ret a, seen⟩ =>
      rw [hn] at h
      cases h
    | some ⟨job, .raise e, seen⟩ =>
      rw [hn] at h
      cases h
    | some ⟨job, .call o k, seen⟩ =>
      rw [hn] at h
      obtain ⟨⟨r, ext⟩, hanswer, rfl⟩ := Option.map_eq_some_iff.mp h
      exact .call hn rfl (plain_answers hanswer)
  | commit n =>
    -- only what has returned may commit
    unfold advance at h
    dsimp only at h
    match hn : s.running n with
    | none =>
      rw [hn] at h
      cases h
    | some ⟨job, .ret a, seen⟩ =>
      rw [hn] at h
      obtain ⟨db, hredo, rfl⟩ := Option.map_eq_some_iff.mp h
      exact .commit hn rfl hredo
    | some ⟨job, .raise e, seen⟩ =>
      rw [hn] at h
      cases h
    | some ⟨job, .call o k, seen⟩ =>
      rw [hn] at h
      cases h
  | abort n =>
    unfold advance at h
    dsimp only at h
    cases hn : s.running n with
    | some f =>
      rw [hn] at h
      obtain rfl := Option.some.inj h
      exact .abort hn
    | none =>
      rw [hn] at h
      cases h

/-- A move of its own, or all that is left of a transaction, alone, with its commit. -/
inductive Turn (K : Type) where
  | move (m : Move K)
  | finish (n : Nat)

variable (S run_ext prog) in
/-- The turn, when it can be taken. -/
def take_turn (turn : Turn K) (s : Shared Row Patch Id Answer ε α σ K) :
    Option (Shared Row Patch Id Answer ε α σ K) :=
  match turn with
  | .move m => advance S run_ext prog m s
  | .finish n =>
      (s.running n).bind (fun f => (redo S f.log s.db).bind (fun view =>
        match f.rest.exec (perform S run_ext) ⟨view, s.ext, []⟩ with
        | (.ok _, t) => some ⟨t.db, t.ext, s.put n none⟩
        | (.error _, _) => none))

variable (S run_ext prog) in
/-- The state after a script, latest turn first. -/
def play_turns (s₀ : Shared Row Patch Id Answer ε α σ K) :
    List (Turn K) → Option (Shared Row Patch Id Answer ε α σ K)
  | [] => some s₀
  | turn :: earlier => (play_turns s₀ earlier).bind (take_turn S run_ext prog turn)

section scripts
variable {s₀ : Shared Row Patch Id Answer ε α σ K}
  {past : List (Move K × Shared Row Patch Id Answer ε α σ K)}

/-- A transaction that is finished is committed, on the rows it found when its turn came. -/
theorem finish_commits {n : Nat} (hr : Run (Moves S run_ext prog) unrestricted s₀ past s)
    (h : take_turn S run_ext prog (.finish n) s = some s') :
    ∃ past₁ s₁, Run (Moves S run_ext prog) unrestricted s₀ past₁ s₁ ∧ s₁.db = s.db ∧
      Moves S run_ext prog s₁ (.commit n) s' := by
  obtain ⟨⟨job, rest, seen⟩, hflies, h⟩ := Option.bind_eq_some_iff.mp h
  obtain ⟨view, hview, h⟩ := Option.bind_eq_some_iff.mp h
  cases hexec : rest.exec (perform S run_ext) ⟨view, s.ext, []⟩ with
  | mk r t =>
    dsimp only at h
    rw [hexec] at h
    cases r with
    | error e => cases h
    | ok a =>
      obtain rfl := Option.some.inj h
      obtain ⟨past₁, seen₁, hr₁, _, hredo, _⟩ :=
        run_alone hr (fun _ _ => trivial) hflies hview hexec
      refine ⟨past₁, _, hr₁, rfl, ?_⟩
      have hcommit : Moves S run_ext prog ⟨s.db, t.ext, s.put n (some ⟨job, .ret a, seen₁⟩)⟩
          (.commit n) _ := .commit (Shared.put_self s n _) rfl hredo
      rwa [put_put] at hcommit

theorem run_turns {turns : List (Turn K)} (h : play_turns S run_ext prog s₀ turns = some s) :
    ∃ past, Run (Moves S run_ext prog) unrestricted s₀ past s := by
  induction turns generalizing s with
  | nil =>
    obtain rfl := Option.some.inj h
    exact ⟨[], .start⟩
  | cons turn earlier ih =>
    obtain ⟨s₁, hearlier, hturn⟩ := Option.bind_eq_some_iff.mp h
    obtain ⟨past, hr⟩ := ih hearlier
    cases turn with
    | move m => exact ⟨_, hr.next m trivial (advance_moves hturn)⟩
    | finish n =>
      obtain ⟨past₁, s₂, hr₁, _, hcommit⟩ := finish_commits hr hturn
      exact ⟨_, hr₁.next (.commit n) trivial hcommit⟩

/-- The turns of a newcomer: it begins and makes some calls. -/
def joining (n : Nat) (job : K) (calls : Nat) : List (Turn K) :=
  List.replicate calls (.move (.call n)) ++ [.move (.begin n job)]

/-- **Newcomer.** A transaction that may begin beside those in flight, and may make its
    calls, prolongs the run. -/
theorem run_joined {may : List (Move K × Shared Row Patch Id Answer ε α σ K) →
      Shared Row Patch Id Answer ε α σ K → Move K → Prop}
    (hr : Run (Moves S run_ext prog) may s₀ past s) {n : Nat} {job : K} {calls : Nat}
    (hbegin : may past s (.begin n job)) (hcall : ∀ past s, may past s (.call n))
    (h : play_turns S run_ext prog s (joining n job calls) = some s') :
    ∃ past', Run (Moves S run_ext prog) may s₀ past' s' ∧ begun past' = job :: begun past := by
  induction calls generalizing s' with
  | zero =>
    have hturn : advance S run_ext prog (.begin n job) s = some s' := h
    exact ⟨_, hr.next (.begin n job) hbegin (advance_moves hturn), rfl⟩
  | succ calls ih =>
    have hturns : (play_turns S run_ext prog s (joining n job calls)).bind
        (take_turn S run_ext prog (.move (.call n))) = some s' := h
    obtain ⟨s₁, hearlier, hturn⟩ := Option.bind_eq_some_iff.mp hturns
    obtain ⟨past₁, hr₁, hbegun⟩ := ih hearlier
    have hmove : advance S run_ext prog (.call n) s₁ = some s' := hturn
    have hsame : begun ((.call n, s₁) :: past₁) = begun past₁ := rfl
    exact ⟨_, hr₁.next (.call n) (hcall past₁ s₁) (advance_moves hmove), hsame.trans hbegun⟩

end scripts

end play

end Framework
