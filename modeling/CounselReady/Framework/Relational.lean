import Mathlib.Data.List.Basic

/-! # A Relational Store

    Tables of rows with a primary key, unique indexes, column checks and
    foreign keys. The tables, their rows and the `UPDATE`s that may be issued
    against them are parameters.

    * A **statement** (`Write`) is what a client asks for. It is refused when
      it would break a declared constraint (`check`).
    * A **change** (`Change`) is what an admitted statement does to the rows:
      a `DELETE` is resolved to the rows its `ON DELETE CASCADE` keys reach
      (`doomed`), and clears the `ON DELETE SET NULL` columns that pointed at
      them.
-/

namespace Relational

/-! ### Schemas -/

/-- Why a statement failed. -/
inductive Violation where
  /-- a unique index, a foreign key or a CHECK constraint -/
  | integrity
  /-- a value that does not fit its column -/
  | data
  /-- a text with a character that no text column has -/
  | encoding
  /-- an UPDATE that matched no row -/
  | stale
  /-- the statement itself did not get through -/
  | unavailable
  deriving DecidableEq, Repr

inductive OnDelete (ρ : Type) where
  | cascade
  | set_null (clear : ρ → ρ)

structure ForeignKey {Table : Type} (Row : Table → Type) (Id : Type) (t : Table) where
  column : Row t → Option Id
  target : Table
  on_delete : OnDelete (Row t)

/-- A schema over the tables `Table`. Neither an UPDATE nor a `SET NULL` can
    move a row to another primary key. -/
structure Schema (Table : Type) (Row Patch : Table → Type) (Id : Type) where
  pk : (t : Table) → Row t → Id
  apply : (t : Table) → Patch t → Row t → Row t
  /-- two rows that collide on a unique index other than the primary key -/
  clash : (t : Table) → Row t → Row t → Bool
  /-- column lengths and CHECK constraints -/
  fits : (t : Table) → Row t → Option Violation
  keys : (t : Table) → List (ForeignKey Row Id t)
  /-- the tables, parents before children -/
  order : List Table
  pk_apply : ∀ t p r, pk t (apply t p r) = pk t r
  pk_clear : ∀ t, ∀ k ∈ keys t, ∀ clear, k.on_delete = .set_null clear →
    ∀ r, pk t (clear r) = pk t r

/-- The rows of every table, in insertion order. -/
abbrev Db {Table : Type} (Row : Table → Type) := (t : Table) → List (Row t)

variable {Table Id : Type} {Row Patch : Table → Type} [DecidableEq Table] [DecidableEq Id]

/-- Replace the rows of one table. -/
def Db.set (db : Db Row) (t : Table) (rows : List (Row t)) : Db Row :=
  fun t' => if h : t = t' then h ▸ rows else db t'

@[simp] theorem Db.set_self (db : Db Row) (t : Table) (rows : List (Row t)) :
    db.set t rows t = rows := by
  simp [Db.set]

@[simp] theorem Db.set_ne (db : Db Row) {t t' : Table} (rows : List (Row t)) (h : t ≠ t') :
    db.set t rows t' = db t' := by
  simp [Db.set, h]

/-! ### Statements and changes -/

inductive Write (Row Patch : Table → Type) (Id : Type) where
  | insert (t : Table) (row : Row t)
  | update (t : Table) (id : Id) (patch : Patch t)
  | delete (t : Table) (id : Id)

inductive Change (Row Patch : Table → Type) (Id : Type) where
  | insert (t : Table) (row : Row t)
  | update (t : Table) (id : Id) (patch : Patch t)
  | remove (gone : List (Table × Id))

def ForeignKey.cascades {t : Table} (k : ForeignKey Row Id t) : Bool :=
  match k.on_delete with
  | .cascade => true
  | .set_null _ => false

/-- The row points at one of the rows `gone`. -/
def ForeignKey.hits {t : Table} (k : ForeignKey Row Id t) (gone : List (Table × Id))
    (r : Row t) : Bool :=
  match k.column r with
  | none => false
  | some j => decide ((k.target, j) ∈ gone)

namespace Schema

variable (S : Schema Table Row Patch Id)

/-- The rows of `t` that the cascading keys of `t` lose with `gone`. -/
def orphans (db : Db Row) (gone : List (Table × Id)) (t : Table) : List (Row t) :=
  (db t).filter (fun r => (S.keys t).any (fun k => k.cascades && k.hits gone r))

def spread (db : Db Row) (gone : List (Table × Id)) (t : Table) : List (Table × Id) :=
  gone ++ (S.orphans db gone t).map (fun r => (t, S.pk t r))

/-- The rows that go when row `id` of `t` is deleted: one pass over the tables,
    parents first, is enough because no key points at a later table. -/
def doomed (db : Db Row) (t : Table) (id : Id) : List (Table × Id) :=
  S.order.foldl (S.spread db) [(t, id)]

/-- `ON DELETE SET NULL`, for one key of a row that stays. -/
def nulled {t : Table} (gone : List (Table × Id)) (r : Row t) (k : ForeignKey Row Id t) : Row t :=
  match k.on_delete with
  | .cascade => r
  | .set_null clear => if k.hits gone r then clear r else r

def null_out (gone : List (Table × Id)) (t : Table) (r : Row t) : Row t :=
  (S.keys t).foldl (nulled gone) r

def resolve (db : Db Row) : Write Row Patch Id → Change Row Patch Id
  | .insert t row => .insert t row
  | .update t id patch => .update t id patch
  | .delete t id => .remove (S.doomed db t id)

def patched (t : Table) (id : Id) (patch : Patch t) (r : Row t) : Row t :=
  if S.pk t r = id then S.apply t patch r else r

def effect (c : Change Row Patch Id) (db : Db Row) : Db Row :=
  match c with
  | .insert t row => db.set t (db t ++ [row])
  | .update t id patch => db.set t ((db t).map (S.patched t id patch))
  | .remove gone => fun t =>
      ((db t).filter (fun r => decide ((t, S.pk t r) ∉ gone))).map (S.null_out gone t)

/-- The rows of `t` under one primary key: at most one in a sound store. -/
def lookup (db : Db Row) (t : Table) (id : Id) : List (Row t) :=
  (db t).filter (fun r => decide (S.pk t r = id))

/-- Every foreign key of the row finds its target. -/
def anchored (db : Db Row) (t : Table) (r : Row t) : Bool :=
  (S.keys t).all (fun k => match k.column r with
    | none => true
    | some j => (db k.target).any (fun p => decide (S.pk k.target p = j)))

/-- What the database answers to a statement: `none` when it is carried out. -/
def check (db : Db Row) : Write Row Patch Id → Option Violation
  | .insert t row =>
      match S.fits t row with
      | some v => some v
      | none =>
          if (db t).any (fun r => decide (S.pk t r = S.pk t row) || S.clash t r row) then
            some .integrity
          else if S.anchored db t row then none else some .integrity
  | .update t id patch =>
      match (S.lookup db t id).map (S.apply t patch) with
      | [] => some .stale
      | row :: _ =>
          match S.fits t row with
          | some v => some v
          | none =>
              if (db t).any (fun r => decide (S.pk t r ≠ id) && S.clash t r row) then
                some .integrity
              else none
  | .delete _ _ => none

/-- One statement against the store. -/
def attempt (w : Write Row Patch Id) (db : Db Row) : Except Violation Unit × Db Row :=
  match S.check db w with
  | some v => (.error v, db)
  | none => (.ok (), S.effect (S.resolve db w) db)

/-! ### What a change does to each table -/

variable {S}

@[simp] theorem effect_insert_self (db : Db Row) (t : Table) (row : Row t) :
    S.effect (.insert t row) db t = db t ++ [row] := by
  simp [effect]

@[simp] theorem effect_insert_ne (db : Db Row) {t t' : Table} (row : Row t) (h : t ≠ t') :
    S.effect (.insert t row) db t' = db t' := by
  simp [effect, h]

@[simp] theorem effect_update_self (db : Db Row) (t : Table) (id : Id) (p : Patch t) :
    S.effect (.update t id p) db t = (db t).map (S.patched t id p) := by
  simp [effect]

@[simp] theorem effect_update_ne (db : Db Row) {t t' : Table} (id : Id) (p : Patch t)
    (h : t ≠ t') : S.effect (.update t id p) db t' = db t' := by
  simp [effect, h]

theorem effect_remove (db : Db Row) (gone : List (Table × Id)) (t : Table) :
    S.effect (.remove gone) db t =
      ((db t).filter (fun r => decide ((t, S.pk t r) ∉ gone))).map (S.null_out gone t) := rfl

theorem mem_effect_remove {db : Db Row} {gone : List (Table × Id)} {t : Table} {r : Row t} :
    r ∈ S.effect (.remove gone) db t ↔
      ∃ r₀ ∈ db t, (t, S.pk t r₀) ∉ gone ∧ S.null_out gone t r₀ = r := by
  simp only [effect_remove, List.mem_map, List.mem_filter, decide_eq_true_eq, and_assoc]

theorem mem_effect_insert {db : Db Row} {t : Table} {row r : Row t} :
    r ∈ S.effect (.insert t row) db t ↔ r ∈ db t ∨ r = row := by
  simp

theorem mem_effect_update {db : Db Row} {t : Table} {id : Id} {p : Patch t} {r : Row t} :
    r ∈ S.effect (.update t id p) db t ↔ ∃ r₀ ∈ db t, S.patched t id p r₀ = r := by
  simp

omit [DecidableEq Table] in
@[simp] theorem pk_patched (t : Table) (id : Id) (p : Patch t) (r : Row t) :
    S.pk t (S.patched t id p r) = S.pk t r := by
  unfold patched
  split
  · exact S.pk_apply t p r
  · rfl

omit [DecidableEq Table] in
theorem patched_of_ne {t : Table} {id : Id} {p : Patch t} {r : Row t} (h : S.pk t r ≠ id) :
    S.patched t id p r = r := by
  simp [patched, h]

omit [DecidableEq Table] in
theorem patched_of_eq {t : Table} {id : Id} {p : Patch t} {r : Row t} (h : S.pk t r = id) :
    S.patched t id p r = S.apply t p r := by
  simp [patched, h]

/-- What each clearing of a column keeps, all of them keep. The induction is on
    the keys still to be looked at. -/
theorem foldl_nulled_keeps {gone : List (Table × Id)} {t : Table} (P : Row t → Prop)
    {ks : List (ForeignKey Row Id t)}
    (hP : ∀ k ∈ ks, ∀ clear, k.on_delete = .set_null clear → ∀ r, P r → P (clear r))
    {r : Row t} (hr : P r) : P (ks.foldl (nulled gone) r) := by
  induction ks generalizing r with
  | nil => exact hr
  | cons k ks ih =>
    apply ih (fun k' hk' => hP k' (List.mem_cons_of_mem _ hk'))
    unfold nulled
    cases hod : k.on_delete with
    | cascade => exact hr
    | set_null clear =>
      dsimp only
      split
      · exact hP k List.mem_cons_self clear hod r hr
      · exact hr

@[simp] theorem pk_null_out (gone : List (Table × Id)) (t : Table) (r : Row t) :
    S.pk t (S.null_out gone t r) = S.pk t r := by
  refine foldl_nulled_keeps (fun r' => S.pk t r' = S.pk t r) ?_ rfl
  intro k hk clear hclear r' hr'
  rw [S.pk_clear t k hk clear hclear r', hr']

/-! ### Tables without `SET NULL` -/

/-- No `SET NULL` column in this table: its rows stay as they are or go. -/
def Rigid (S : Schema Table Row Patch Id) (t : Table) : Prop :=
  ∀ gone r, S.null_out gone t r = r

theorem rigid_of_cascades {t : Table} (h : ∀ k ∈ S.keys t, k.cascades = true) :
    S.Rigid t := by
  intro gone r
  refine foldl_nulled_keeps (fun r' => r' = r) ?_ rfl
  intro k hk clear hclear
  have hc := h k hk
  simp [ForeignKey.cascades, hclear] at hc

/-- **Inversion.** Where a row of a rigid table comes from: it was there, it was
    inserted, or it was updated. -/
theorem mem_effect_resolve {db : Db Row} {w : Write Row Patch Id} {t : Table} {r : Row t}
    (ht : S.Rigid t) (hr : r ∈ S.effect (S.resolve db w) db t) :
    r ∈ db t ∨ w = .insert t r ∨
      ∃ id p, ∃ r₀ ∈ db t, w = .update t id p ∧ S.pk t r₀ = id ∧ r = S.apply t p r₀ := by
  cases w with
  | insert t' row =>
    by_cases htt : t' = t
    · subst htt
      rcases mem_effect_insert.mp hr with hold | rfl
      · exact .inl hold
      · exact .inr (.inl rfl)
    · exact .inl (by rwa [resolve, effect_insert_ne _ _ htt] at hr)
  | update t' id p =>
    by_cases htt : t' = t
    · subst htt
      obtain ⟨r₀, hr₀, rfl⟩ := mem_effect_update.mp hr
      by_cases hid : S.pk t' r₀ = id
      · exact .inr (.inr ⟨id, p, r₀, hr₀, rfl, hid, patched_of_eq hid⟩)
      · rw [patched_of_ne hid]
        exact .inl hr₀
    · exact .inl (by rwa [resolve, effect_update_ne _ _ _ htt] at hr)
  | delete t' id =>
    obtain ⟨r₀, hr₀, _, rfl⟩ := mem_effect_remove.mp hr
    rw [ht]
    exact .inl hr₀

/-- **Inversion of keys.** A row after a statement is keyed as one before, or was
    inserted. -/
theorem pk_effect_resolve {db : Db Row} {w : Write Row Patch Id} {t : Table} {r : Row t}
    (hr : r ∈ S.effect (S.resolve db w) db t) :
    (∃ r₀ ∈ db t, S.pk t r = S.pk t r₀) ∨ w = .insert t r := by
  cases w with
  | insert t' row =>
    by_cases htt : t' = t
    · subst htt
      rcases mem_effect_insert.mp hr with hold | rfl
      · exact .inl ⟨r, hold, rfl⟩
      · exact .inr rfl
    · rw [resolve, effect_insert_ne _ _ htt] at hr
      exact .inl ⟨r, hr, rfl⟩
  | update t' id p =>
    by_cases htt : t' = t
    · subst htt
      obtain ⟨r₀, hr₀, rfl⟩ := mem_effect_update.mp hr
      exact .inl ⟨r₀, hr₀, pk_patched _ _ _ _⟩
    · rw [resolve, effect_update_ne _ _ _ htt] at hr
      exact .inl ⟨r, hr, rfl⟩
  | delete t' id =>
    obtain ⟨r₀, hr₀, _, rfl⟩ := mem_effect_remove.mp hr
    exact .inl ⟨r₀, hr₀, pk_null_out _ _ _⟩

/-! ### The rows a delete reaches -/

theorem mem_doomed_self (db : Db Row) (t : Table) (id : Id) :
    (t, id) ∈ S.doomed db t id := by
  unfold doomed
  suffices h : ∀ (ts : List Table) (gone : List (Table × Id)), (t, id) ∈ gone →
      (t, id) ∈ ts.foldl (S.spread db) gone from h _ _ (by simp)
  intro ts
  induction ts with
  | nil => intro gone h; exact h
  | cons t' ts ih =>
    intro gone h
    exact ih _ (List.mem_append_left _ h)

theorem mem_foldl_spread {db : Db Row} {ts : List Table} {gone : List (Table × Id)}
    {x : Table × Id} (h : x ∈ gone) : x ∈ ts.foldl (S.spread db) gone := by
  induction ts generalizing gone with
  | nil => exact h
  | cons t' ts ih => exact ih (List.mem_append_left _ h)

/-- A pass over `ts` adds rows of the tables in `ts` only. -/
theorem mem_of_foldl_spread {db : Db Row} {ts : List Table} {gone : List (Table × Id)}
    {x : Table × Id} (h : x ∈ ts.foldl (S.spread db) gone) (hx : x.1 ∉ ts) : x ∈ gone := by
  induction ts generalizing gone with
  | nil => exact h
  | cons t' ts ih =>
    have hmem := ih h (fun hin => hx (List.mem_cons_of_mem _ hin))
    rcases List.mem_append.mp hmem with hg | hnew
    · exact hg
    · obtain ⟨r, _, rfl⟩ := List.mem_map.mp hnew
      exact absurd List.mem_cons_self hx

/-- No key points at its own table or at one that comes later. -/
def Stratified (S : Schema Table Row Patch Id) : Prop :=
  ∀ pre t post, S.order = pre ++ t :: post →
    ∀ k ∈ S.keys t, k.cascades = true → k.target ∉ t :: post

/-- **Cascade.** In a stratified schema the doomed rows are closed under the
    cascading keys. -/
theorem doomed_closed {db : Db Row} {t₀ t : Table} {i₀ : Id} {r : Row t}
    {k : ForeignKey Row Id t} (hS : S.Stratified) (ht : t ∈ S.order) (hr : r ∈ db t)
    (hk : k ∈ S.keys t) (hc : k.cascades = true)
    (hit : k.hits (S.doomed db t₀ i₀) r = true) :
    (t, S.pk t r) ∈ S.doomed db t₀ i₀ := by
  obtain ⟨pre, post, hord⟩ := List.append_of_mem ht
  have htar := hS pre t post hord k hk hc
  have hsplit : S.doomed db t₀ i₀ =
      (t :: post).foldl (S.spread db) (pre.foldl (S.spread db) [(t₀, i₀)]) := by
    unfold doomed
    rw [hord, List.foldl_append]
  rw [hsplit] at hit ⊢
  generalize pre.foldl (S.spread db) [(t₀, i₀)] = gone at hit ⊢
  -- the parent was reached before `t` was visited
  have hparent : k.hits gone r = true := by
    unfold ForeignKey.hits at hit ⊢
    cases hcol : k.column r with
    | none => simp [hcol] at hit
    | some j =>
      simp only [hcol, decide_eq_true_eq] at hit ⊢
      exact mem_of_foldl_spread hit htar
  rw [List.foldl_cons]
  apply mem_foldl_spread
  apply List.mem_append_right
  apply List.mem_map.mpr
  refine ⟨r, List.mem_filter.mpr ⟨hr, ?_⟩, rfl⟩
  exact List.any_eq_true.mpr ⟨k, hk, by simp [hc, hparent]⟩

/-- A row that goes is the one deleted, or hangs off another row that goes. -/
theorem doomed_sound {db : Db Row} {t₀ t : Table} {i₀ i : Id}
    (h : (t, i) ∈ S.doomed db t₀ i₀) :
    (t, i) = (t₀, i₀) ∨ ∃ r ∈ db t, S.pk t r = i ∧
      ∃ k ∈ S.keys t, k.cascades = true ∧ k.hits (S.doomed db t₀ i₀) r = true := by
  suffices hfold : ∀ (ts : List Table) (gone all : List (Table × Id)),
      (∀ x ∈ ts.foldl (S.spread db) gone, x ∈ all) →
      (t, i) ∈ ts.foldl (S.spread db) gone →
      (t, i) ∈ gone ∨ ∃ r ∈ db t, S.pk t r = i ∧
        ∃ k ∈ S.keys t, k.cascades = true ∧ k.hits all r = true by
    rcases hfold S.order [(t₀, i₀)] _ (fun x hx => hx) h with hg | hr
    · exact .inl (List.mem_singleton.mp hg)
    · exact .inr hr
  intro ts
  induction ts with
  | nil => intro gone all _ hmem; exact .inl hmem
  | cons t' ts ih =>
    intro gone all hall hmem
    rcases ih (S.spread db gone t') all hall hmem with hg | hr
    · rcases List.mem_append.mp hg with hg | hnew
      · exact .inl hg
      · obtain ⟨r, hr, heq⟩ := List.mem_map.mp hnew
        obtain ⟨rfl, rfl⟩ := Prod.mk.injEq _ _ _ _ ▸ heq
        obtain ⟨hrdb, hany⟩ := List.mem_filter.mp hr
        obtain ⟨k, hk, hkk⟩ := List.any_eq_true.mp hany
        rw [Bool.and_eq_true] at hkk
        refine .inr ⟨r, hrdb, rfl, k, hk, hkk.1, ?_⟩
        -- whatever was gone when the row was reached is gone at the end
        have hhit := hkk.2
        unfold ForeignKey.hits at hhit ⊢
        cases hcol : k.column r with
        | none => simp [hcol] at hhit
        | some j =>
          simp only [hcol, decide_eq_true_eq] at hhit ⊢
          have hsp : (k.target, j) ∈ S.spread db gone t' := List.mem_append_left _ hhit
          apply hall
          rw [List.foldl_cons]
          exact mem_foldl_spread hsp
    · exact .inr hr

/-- A row that goes with another one points at a row that goes. -/
theorem doomed_parent {db : Db Row} {t₀ t : Table} {i₀ i : Id}
    (h : (t, i) ∈ S.doomed db t₀ i₀) (hne : (t, i) ≠ (t₀, i₀)) :
    ∃ r ∈ db t, S.pk t r = i ∧ ∃ k ∈ S.keys t, k.cascades = true ∧
      ∃ j, k.column r = some j ∧ (k.target, j) ∈ S.doomed db t₀ i₀ := by
  rcases doomed_sound h with heq | ⟨r, hr, hpk, k, hk, hc, hit⟩
  · exact absurd heq hne
  · refine ⟨r, hr, hpk, k, hk, hc, ?_⟩
    unfold ForeignKey.hits at hit
    cases hcol : k.column r with
    | none => simp [hcol] at hit
    | some j => exact ⟨j, rfl, by simpa [hcol] using hit⟩

/-- Rows of a table without cascading keys never go with another row. -/
theorem not_mem_doomed {db : Db Row} {t₀ t : Table} {i₀ i : Id} (hne : t ≠ t₀)
    (h : ∀ k ∈ S.keys t, k.cascades = false) : (t, i) ∉ S.doomed db t₀ i₀ := by
  intro hmem
  rcases doomed_sound hmem with heq | ⟨r, _, _, k, hk, hc, _⟩
  · exact hne (Prod.mk.inj heq).1
  · rw [h k hk] at hc
    exact Bool.false_ne_true hc

/-! ### Admitted statements -/

omit [DecidableEq Table] in
theorem check_insert {db : Db Row} {t : Table} {row : Row t}
    (h : S.check db (.insert t row) = none) :
    S.fits t row = none ∧
      (∀ r ∈ db t, S.pk t r ≠ S.pk t row ∧ S.clash t r row = false) ∧
      S.anchored db t row = true := by
  simp only [check] at h
  split at h
  · cases h
  · next hfit =>
    split at h
    · cases h
    · next hany =>
      split at h
      · next hanch =>
        refine ⟨hfit, ?_, hanch⟩
        intro r hr
        simp only [List.any_eq_true, not_exists, not_and, Bool.not_eq_true] at hany
        have := hany r hr
        simpa using this
      · cases h

omit [DecidableEq Table] in
theorem anchored_iff {db : Db Row} {t : Table} {r : Row t} :
    S.anchored db t r = true ↔
      ∀ k ∈ S.keys t, ∀ j, k.column r = some j → ∃ p ∈ db k.target, S.pk k.target p = j := by
  unfold anchored
  rw [List.all_eq_true]
  constructor
  · intro h k hk j hj
    have hany := h k hk
    simp only [hj] at hany
    simpa using hany
  · intro h k hk
    cases hcol : k.column r with
    | none => rfl
    | some j => simpa using h k hk j hcol

omit [DecidableEq Table] in
theorem check_insert_of {db : Db Row} {t : Table} {row : Row t} (hfit : S.fits t row = none)
    (hnew : ∀ r ∈ db t, S.pk t r ≠ S.pk t row ∧ S.clash t r row = false)
    (hanch : S.anchored db t row = true) : S.check db (.insert t row) = none := by
  have hany : (db t).any (fun r => decide (S.pk t r = S.pk t row) || S.clash t r row) = false := by
    rw [List.any_eq_false]
    intro r hr
    simp [hnew r hr]
  simp [check, hfit, hany, hanch]

omit [DecidableEq Table] in
theorem check_update {db : Db Row} {t : Table} {id : Id} {p : Patch t}
    (h : S.check db (.update t id p) = none) : ∃ r ∈ db t, S.pk t r = id := by
  simp only [check] at h
  split at h
  · cases h
  · next row rows heq =>
    cases hl : S.lookup db t id with
    | nil => simp [hl] at heq
    | cons r rs =>
      have hmem : r ∈ S.lookup db t id := by rw [hl]; exact List.mem_cons_self
      obtain ⟨hr, hpk⟩ := List.mem_filter.mp hmem
      exact ⟨r, hr, by simpa using hpk⟩

omit [DecidableEq Table] in
theorem check_update_of {db : Db Row} {t : Table} {id : Id} {p : Patch t}
    (hfound : ∃ r ∈ db t, S.pk t r = id)
    (hfits : ∀ r ∈ db t, S.pk t r = id → S.fits t (S.apply t p r) = none)
    (hclash : ∀ r ∈ db t, S.pk t r = id → ∀ r' ∈ db t, S.pk t r' ≠ id →
      S.clash t r' (S.apply t p r) = false) : S.check db (.update t id p) = none := by
  have hlookup : ∀ r, r ∈ S.lookup db t id ↔ r ∈ db t ∧ S.pk t r = id := by
    intro r
    unfold lookup
    rw [List.mem_filter, decide_eq_true_eq]
  cases hl : S.lookup db t id with
  | nil =>
    obtain ⟨r, hr, hpk⟩ := hfound
    have hmem := (hlookup r).mpr ⟨hr, hpk⟩
    rw [hl] at hmem
    cases hmem
  | cons r rs =>
    obtain ⟨hr, hpk⟩ := (hlookup r).mp (by rw [hl]; exact List.mem_cons_self)
    have hclear : ∀ r' ∈ db t, ¬ S.pk t r' = id → S.clash t r' (S.apply t p r) = false :=
      fun r' hr' hne => hclash r hr hpk r' hr' hne
    simpa [check, hl, hfits r hr hpk] using hclear

end Schema

end Relational
