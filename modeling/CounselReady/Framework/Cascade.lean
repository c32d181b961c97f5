import CounselReady.Framework.Integrity
import Mathlib.Logic.Relation

/-! # Chains of Foreign Keys

    A row **refers** to another when one of its foreign keys holds the other's
    primary key. The rows a `DELETE` dooms are computed by one pass over the
    tables (`Schema.doomed`); here that pass is shown to find exactly the rows
    from which a chain of cascading keys leads to the deleted row.

    * `Schema.mem_doomed_iff`: the computed set is the closure.
    * `Schema.BelongsTo.of_sides`: what every key carries back from its target
      holds along a chain, to tell the rows of one root from those of another.
-/

namespace Relational

variable {Table Id : Type} {Row Patch : Table → Type} [DecidableEq Table] [DecidableEq Id]

namespace Schema

variable (S : Schema Table Row Patch Id)

/-- The row `x` of the store points at `y`, by a key that is `via`. -/
def Refers (via : (t : Table) → ForeignKey Row Id t → Prop) (db : Db Row) (x y : Table × Id) :
    Prop :=
  ∃ r ∈ db x.1, S.pk x.1 r = x.2 ∧
    ∃ k ∈ S.keys x.1, via x.1 k ∧ k.target = y.1 ∧ k.column r = some y.2

/-- A chain of any length, from a row to the row it ends in. -/
abbrev Chain (via : (t : Table) → ForeignKey Row Id t → Prop) (db : Db Row) :
    Table × Id → Table × Id → Prop :=
  Relation.ReflTransGen (S.Refers via db)

/-- `x` reaches `y` through `ON DELETE CASCADE` keys alone. -/
abbrev HangsOff (db : Db Row) : Table × Id → Table × Id → Prop :=
  S.Chain (fun _ k => k.cascades = true) db

/-- `x` reaches `y` through foreign keys, whatever their action. -/
abbrev BelongsTo (db : Db Row) : Table × Id → Table × Id → Prop :=
  S.Chain (fun _ _ => True) db

variable {S} {db : Db Row}

/-! ### The computed set is the closure -/

theorem hits_of_column {t : Table} {k : ForeignKey Row Id t} {gone : List (Table × Id)} {r : Row t}
    {y : Table × Id} (htarget : k.target = y.1) (hcol : k.column r = some y.2) (hy : y ∈ gone) :
    k.hits gone r = true := by
  have hpair : (k.target, y.2) = y := by rw [htarget]
  simp [ForeignKey.hits, hcol, hpair, hy]

/-- A pass adds only rows that hang off a row it started with. -/
theorem hangs_off_of_foldl_spread {ts : List Table} {gone : List (Table × Id)} {root : Table × Id}
    (hgone : ∀ x ∈ gone, S.HangsOff db x root) :
    ∀ x ∈ ts.foldl (S.spread db) gone, S.HangsOff db x root := by
  induction ts generalizing gone with
  | nil => exact hgone
  | cons t ts ih =>
    apply ih
    intro x hx
    rcases List.mem_append.mp hx with hold | hnew
    · exact hgone x hold
    · obtain ⟨r, hr, rfl⟩ := List.mem_map.mp hnew
      obtain ⟨hrdb, hany⟩ := List.mem_filter.mp hr
      obtain ⟨k, hk, hboth⟩ := List.any_eq_true.mp hany
      obtain ⟨hc, hit⟩ := Bool.and_eq_true_iff.mp hboth
      -- the parent was reached already, and the row points at it
      unfold ForeignKey.hits at hit
      cases hcol : k.column r with
      | none => simp [hcol] at hit
      | some j =>
        have hparent : (k.target, j) ∈ gone := by simpa [hcol] using hit
        have hstep : S.Refers (fun _ k => k.cascades = true) db (t, S.pk t r) (k.target, j) :=
          ⟨r, hrdb, rfl, k, hk, hc, rfl, hcol⟩
        exact Relation.ReflTransGen.head hstep (hgone _ hparent)

/-- Every row of a chain goes with the row the chain ends in. -/
theorem doomed_of_hangs_off (hS : S.Stratified) (hord : ∀ t, t ∈ S.order) {t : Table} {id : Id}
    {x : Table × Id} (h : S.HangsOff db x (t, id)) : x ∈ S.doomed db t id := by
  induction h using Relation.ReflTransGen.head_induction_on with
  | refl => exact mem_doomed_self db t id
  | head hstep _ ih =>
    obtain ⟨r, hr, hpk, k, hk, hc, htarget, hcol⟩ := hstep
    have hgoes := doomed_closed hS (hord _) hr hk hc (hits_of_column htarget hcol ih)
    rwa [hpk] at hgoes

/-- **Cascade closure.** What a delete dooms is what hangs off the deleted row. -/
theorem mem_doomed_iff (hS : S.Stratified) (hord : ∀ t, t ∈ S.order) {t : Table} {id : Id}
    {x : Table × Id} : x ∈ S.doomed db t id ↔ S.HangsOff db x (t, id) := by
  constructor
  · intro hx
    refine hangs_off_of_foldl_spread ?_ x hx
    intro y hy
    rw [List.mem_singleton.mp hy]
  · exact doomed_of_hangs_off hS hord

/-- Where no key points at a table, one of its rows goes alone. -/
theorem doomed_leaf (hS : S.Stratified) (hord : ∀ t, t ∈ S.order) {t : Table} {id : Id}
    (hleaf : ∀ t', ∀ k ∈ S.keys t', k.target ≠ t) {x : Table × Id} (h : x ∈ S.doomed db t id) :
    x = (t, id) := by
  have hchain : S.HangsOff db x (t, id) := (mem_doomed_iff hS hord).mp h
  rcases Relation.ReflTransGen.cases_tail hchain with heq | ⟨y, _, r, _, _, k, hk, _, htarget, _⟩
  · exact heq.symm
  · exact absurd htarget (hleaf _ k hk)

/-- A row that goes alone leaves every other row of its table, and every other table. -/
theorem effect_remove_leaf (hS : S.Stratified) (hord : ∀ t, t ∈ S.order) {t t' : Table} {id : Id}
    (hleaf : ∀ t', ∀ k ∈ S.keys t', k.target ≠ t) (ht' : S.Rigid t') :
    S.effect (.remove (S.doomed db t id)) db t' =
      (db t').filter (fun r => decide ((t', S.pk t' r) ≠ (t, id))) := by
  have hgone : ∀ r, (t', S.pk t' r) ∉ S.doomed db t id ↔ (t', S.pk t' r) ≠ (t, id) := by
    intro r
    refine not_congr ⟨doomed_leaf hS hord hleaf, fun heq => ?_⟩
    rw [heq]
    exact mem_doomed_self db t id
  rw [effect_remove, List.map_congr_left (fun r _ => ht' _ r), List.map_id']
  exact List.filter_congr fun r _ => decide_eq_decide.mpr (hgone r)

/-! ### All keys -/

omit [DecidableEq Table] [DecidableEq Id] in
/-- A chain of cascading keys is a chain of keys. -/
theorem HangsOff.belongs {x y : Table × Id} (h : S.HangsOff db x y) : S.BelongsTo db x y := by
  refine Relation.ReflTransGen.mono ?_ _ _ h
  rintro a b ⟨r, hr, hpk, k, hk, _, htarget, hcol⟩
  exact ⟨r, hr, hpk, k, hk, trivial, htarget, hcol⟩

omit [DecidableEq Table] [DecidableEq Id] in
/-- **Sides.** A property of rows that every key carries back from its target
    holds of every row of a chain that ends in a row with the property. -/
theorem BelongsTo.of_sides (side : Table × Id → Prop) {x root : Table × Id}
    (h : S.BelongsTo db x root) (hroot : side root)
    (hback : ∀ a b, S.Refers (fun _ _ => True) db a b → side b → side a) : side x := by
  induction h using Relation.ReflTransGen.head_induction_on with
  | refl => exact hroot
  | head hstep _ ih => exact hback _ _ hstep ih

end Schema

end Relational
