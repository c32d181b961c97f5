import CounselReady.Framework.Transaction

/-! # Integrity of a Relational Store

    What the declared constraints buy: in every store that admitted statements
    can lead to, primary keys and unique indexes tell rows apart, and every
    foreign key finds its target. A delete keeps this because its cascade is
    closed under the cascading keys.
-/

namespace Relational

variable {Table Id : Type} {Row Patch : Table → Type} [DecidableEq Table] [DecidableEq Id]

namespace Schema

/-- The schema's functions respect its constraints: indexes are symmetric, an
    UPDATE leaves foreign keys alone, and `SET NULL` clears its own column and
    touches no indexed one. -/
structure Regular (S : Schema Table Row Patch Id) : Prop where
  stratified : S.Stratified
  ordered : ∀ t, t ∈ S.order
  clash_comm : ∀ t a b, S.clash t a b = S.clash t b a
  apply_column : ∀ t p r, ∀ k ∈ S.keys t, k.column (S.apply t p r) = k.column r
  clear_self : ∀ t, ∀ k ∈ S.keys t, ∀ clear, k.on_delete = .set_null clear →
    ∀ r, k.column (clear r) = none
  clear_other : ∀ t, ∀ k ∈ S.keys t, ∀ clear, k.on_delete = .set_null clear →
    ∀ k' ∈ S.keys t, ∀ r, k'.column (clear r) = k'.column r ∨ k'.column (clear r) = none
  clear_clash : ∀ t, ∀ k ∈ S.keys t, ∀ clear, k.on_delete = .set_null clear →
    ∀ a b, S.clash t (clear a) b = S.clash t a b

structure Consistent (S : Schema Table Row Patch Id) (db : Db Row) : Prop where
  distinct : ∀ t, (db t).Pairwise (fun a b => S.pk t a ≠ S.pk t b)
  indexed : ∀ t, (db t).Pairwise (fun a b => S.clash t a b = false)
  anchored : ∀ t, ∀ r ∈ db t, S.anchored db t r = true

variable {S : Schema Table Row Patch Id} {db : Db Row}

omit [DecidableEq Table] in
theorem consistent_empty : S.Consistent (fun _ => []) where
  distinct := fun _ => List.Pairwise.nil
  indexed := fun _ => List.Pairwise.nil
  anchored := by
    intro t r hr
    cases hr

/-! ### Rows told apart -/

/-- In a pairwise separated list, two members that are not separated are one. -/
theorem eq_of_pairwise {α : Type} {R : α → α → Prop} {l : List α} (hl : l.Pairwise R)
    {a b : α} (ha : a ∈ l) (hb : b ∈ l) (hab : ¬ R a b) (hba : ¬ R b a) : a = b := by
  have hget := List.pairwise_iff_getElem.mp hl
  obtain ⟨i, hi, rfl⟩ := List.getElem_of_mem ha
  obtain ⟨j, hj, rfl⟩ := List.getElem_of_mem hb
  rcases Nat.lt_trichotomy i j with hlt | heq | hgt
  · exact absurd (hget i j hi hj hlt) hab
  · subst heq
    rfl
  · exact absurd (hget j i hj hi hgt) hba

omit [DecidableEq Table] in
/-- One row for each primary key. -/
theorem Consistent.eq_of_pk (h : S.Consistent db) {t : Table} {a b : Row t} (ha : a ∈ db t)
    (hb : b ∈ db t) (hpk : S.pk t a = S.pk t b) : a = b :=
  eq_of_pairwise (h.distinct t) ha hb (fun hne => hne hpk) (fun hne => hne hpk.symm)

omit [DecidableEq Table] in
/-- A SELECT that fixes the primary key finds one row at most. -/
theorem Consistent.select_one (h : S.Consistent db) {t : Table} {p : Row t → Bool} {id : Id}
    (hp : ∀ r, p r = true → S.pk t r = id) : ((db t).filter p).length ≤ 1 := by
  match hrows : (db t).filter p with
  | [] => exact Nat.zero_le 1
  | [_] => exact Nat.le_refl 1
  | a :: b :: rest =>
    have hpair := (h.distinct t).filter p
    rw [hrows] at hpair
    have hall : ∀ r ∈ a :: b :: rest, S.pk t r = id := by
      intro r hr
      rw [← hrows] at hr
      exact hp r (List.mem_filter.mp hr).2
    have ha : S.pk t a = id := hall a (by simp)
    have hb : S.pk t b = id := hall b (by simp)
    have hne : S.pk t a ≠ S.pk t b := (List.pairwise_cons.mp hpair).1 b (by simp)
    exact absurd (ha.trans hb.symm) hne

omit [DecidableEq Table] in
/-- A SELECT that fixes the value of a unique index finds one row at most. -/
theorem Consistent.select_indexed (h : S.Consistent db) {t : Table} {p : Row t → Bool}
    (hp : ∀ a b, p a = true → p b = true → S.clash t a b = true) :
    ((db t).filter p).length ≤ 1 := by
  match hrows : (db t).filter p with
  | [] => exact Nat.zero_le 1
  | [_] => exact Nat.le_refl 1
  | a :: b :: rest =>
    have hpair := (h.indexed t).filter p
    rw [hrows] at hpair
    have hall : ∀ r ∈ a :: b :: rest, p r = true := by
      intro r hr
      rw [← hrows] at hr
      exact (List.mem_filter.mp hr).2
    have hclash : S.clash t a b = true := hp a b (hall a (by simp)) (hall b (by simp))
    have hapart : S.clash t a b = false := (List.pairwise_cons.mp hpair).1 b (by simp)
    rw [hclash] at hapart
    cases hapart

omit [DecidableEq Table] in
/-- One row for each value of a unique index. -/
theorem Consistent.eq_of_clash (h : S.Consistent db) (hS : S.Regular) {t : Table} {a b : Row t}
    (ha : a ∈ db t) (hb : b ∈ db t) (hc : S.clash t a b = true) : a = b := by
  refine eq_of_pairwise (h.indexed t) ha hb ?_ ?_
  · simp [hc]
  · simp [hS.clash_comm t b a, hc]

omit [DecidableEq Table] in
/-- The row a foreign key points at. -/
theorem Consistent.target (h : S.Consistent db) {t : Table} {r : Row t} (hr : r ∈ db t)
    {k : ForeignKey Row Id t} (hk : k ∈ S.keys t) {j : Id} (hj : k.column r = some j) :
    ∃ p ∈ db k.target, S.pk k.target p = j := by
  have hall := List.all_eq_true.mp (h.anchored t r hr) k hk
  simp only [hj] at hall
  obtain ⟨p, hp, hpk⟩ := List.any_eq_true.mp hall
  exact ⟨p, hp, by simpa using hpk⟩

/-! ### Clearing columns -/

omit [DecidableEq Table] [DecidableEq Id] in
theorem column_clear (hS : S.Regular) {t : Table} {k k' : ForeignKey Row Id t}
    (hk : k ∈ S.keys t) (hk' : k' ∈ S.keys t) {clear : Row t → Row t}
    (hclear : k.on_delete = .set_null clear) {r : Row t} (h : k'.column r = none) :
    k'.column (clear r) = none := by
  rcases hS.clear_other t k hk clear hclear k' hk' r with heq | hnone
  · rw [heq, h]
  · exact hnone

/-- A column is cleared or left as it is. -/
theorem column_null_out (hS : S.Regular) {gone : List (Table × Id)} {t : Table}
    {k : ForeignKey Row Id t} (hk : k ∈ S.keys t) (r : Row t) :
    k.column (S.null_out gone t r) = k.column r ∨ k.column (S.null_out gone t r) = none := by
  refine foldl_nulled_keeps (fun r' => k.column r' = k.column r ∨ k.column r' = none) ?_ (.inl rfl)
  intro k₁ hk₁ clear hclear r' hr'
  rcases hr' with heq | hnone
  · rw [← heq]
    exact hS.clear_other t k₁ hk₁ clear hclear k hk r'
  · exact .inr (column_clear hS hk₁ hk hclear hnone)

/-- A column that pointed at a row that goes is cleared. -/
theorem column_null_out_of_hits (hS : S.Regular) {gone : List (Table × Id)} {t : Table}
    {k : ForeignKey Row Id t} (hk : k ∈ S.keys t) (hc : k.cascades = false) {r : Row t}
    (hit : k.hits gone r = true) : k.column (S.null_out gone t r) = none := by
  obtain ⟨pre, post, hks⟩ := List.append_of_mem hk
  unfold null_out
  have hmem : ∀ k' ∈ pre ++ k :: post, k' ∈ S.keys t := by
    intro k' hk'
    rw [hks]
    exact hk'
  rw [hks, List.foldl_append, List.foldl_cons]
  -- what the keys before `k` made of the row
  have hpre : k.column (pre.foldl (nulled gone) r) = k.column r ∨
      k.column (pre.foldl (nulled gone) r) = none := by
    refine foldl_nulled_keeps (fun r' => k.column r' = k.column r ∨ k.column r' = none) ?_ (.inl rfl)
    intro k₁ hk₁ clear hclear r' hr'
    have hk₁ := hmem k₁ (List.mem_append_left _ hk₁)
    rcases hr' with heq | hnone
    · rw [← heq]
      exact hS.clear_other t k₁ hk₁ clear hclear k hk r'
    · exact .inr (column_clear hS hk₁ hk hclear hnone)
  generalize pre.foldl (nulled gone) r = r₁ at hpre ⊢
  have hself : k.column (nulled gone r₁ k) = none := by
    unfold nulled
    cases hod : k.on_delete with
    | cascade => simp [ForeignKey.cascades, hod] at hc
    | set_null clear =>
      dsimp only
      split
      · exact hS.clear_self t k hk clear hod r₁
      · next hno =>
        rcases hpre with heq | hnone
        · unfold ForeignKey.hits at hit hno
          rw [heq] at hno
          exact absurd hit hno
        · exact hnone
  refine foldl_nulled_keeps (fun r' => k.column r' = none) ?_ hself
  intro k₁ hk₁ clear hclear r' hr'
  exact column_clear hS (hmem k₁ (List.mem_append_right _ (List.mem_cons_of_mem _ hk₁))) hk
    hclear hr'

theorem clash_null_out (hS : S.Regular) {gone : List (Table × Id)} {t : Table} (a b : Row t) :
    S.clash t (S.null_out gone t a) (S.null_out gone t b) = S.clash t a b := by
  have hleft : ∀ a b, S.clash t (S.null_out gone t a) b = S.clash t a b := by
    intro a b
    refine foldl_nulled_keeps (fun a' => S.clash t a' b = S.clash t a b) ?_ rfl
    intro k hk clear hclear a' ha'
    rw [hS.clear_clash t k hk clear hclear a' b, ha']
  rw [hleft, hS.clash_comm, hleft, hS.clash_comm]

/-! ### Each kind of statement -/

omit [DecidableEq Table] in
/-- A row with the keys of an anchored one is anchored wherever the rows pointed at remain. -/
theorem anchored_of_columns {db' : Db Row} {t : Table} {r r₀ : Row t}
    (hkeep : ∀ t' q, (db t').any (fun r => decide (S.pk t' r = q)) = true →
      (db' t').any (fun r => decide (S.pk t' r = q)) = true)
    (hcols : ∀ k ∈ S.keys t, k.column r = k.column r₀) (hr₀ : S.anchored db t r₀ = true) :
    S.anchored db' t r = true := by
  unfold anchored at hr₀ ⊢
  rw [List.all_eq_true] at hr₀ ⊢
  intro k hk
  have hkr := hr₀ k hk
  rw [hcols k hk]
  cases hcol : k.column r₀ with
  | none => rfl
  | some j =>
    simp only [hcol] at hkr ⊢
    exact hkeep _ _ hkr

theorem consistent_insert (h : S.Consistent db) {t : Table} {row : Row t}
    (hc : S.check db (.insert t row) = none) :
    S.Consistent (S.effect (.insert t row) db) := by
  obtain ⟨_, hnew, hanch⟩ := check_insert hc
  have hgrow : ∀ t' (q : Id), (db t').any (fun r => decide (S.pk t' r = q)) = true →
      (S.effect (.insert t row) db t').any (fun r => decide (S.pk t' r = q)) = true := by
    intro t' q hq
    obtain ⟨r, hr, hrq⟩ := List.any_eq_true.mp hq
    refine List.any_eq_true.mpr ⟨r, ?_, hrq⟩
    by_cases ht : t = t'
    · subst ht
      exact mem_effect_insert.mpr (.inl hr)
    · rw [effect_insert_ne _ _ ht]
      exact hr
  have hkeep : ∀ t' (r : Row t'), S.anchored db t' r = true →
      S.anchored (S.effect (.insert t row) db) t' r = true :=
    fun t' r hr => anchored_of_columns hgrow (fun _ _ => rfl) hr
  refine ⟨?_, ?_, ?_⟩
  · intro t'
    by_cases ht : t = t'
    · subst ht
      rw [effect_insert_self]
      refine List.pairwise_append.mpr ⟨h.distinct t, List.pairwise_singleton _ _, ?_⟩
      intro a ha b hb
      rw [List.mem_singleton.mp hb]
      exact (hnew a ha).1
    · rw [effect_insert_ne _ _ ht]
      exact h.distinct t'
  · intro t'
    by_cases ht : t = t'
    · subst ht
      rw [effect_insert_self]
      refine List.pairwise_append.mpr ⟨h.indexed t, List.pairwise_singleton _ _, ?_⟩
      intro a ha b hb
      rw [List.mem_singleton.mp hb]
      exact (hnew a ha).2
    · rw [effect_insert_ne _ _ ht]
      exact h.indexed t'
  · intro t' r hr
    by_cases ht : t = t'
    · subst ht
      rcases mem_effect_insert.mp hr with hold | rfl
      · exact hkeep t r (h.anchored t r hold)
      · exact hkeep t r hanch
    · rw [effect_insert_ne _ _ ht] at hr
      exact hkeep t' r (h.anchored t' r hr)

omit [DecidableEq Table] in
/-- The updated row, and what the database checked about it. -/
theorem check_update_clash {t : Table} {id : Id} {p : Patch t} (h : S.Consistent db)
    (hc : S.check db (.update t id p) = none) {r r' : Row t} (hr : r ∈ db t)
    (hid : S.pk t r = id) (hr' : r' ∈ db t) (hne : S.pk t r' ≠ id) :
    S.clash t r' (S.apply t p r) = false := by
  simp only [check] at hc
  split at hc
  · cases hc
  · next row rows hrows =>
    split at hc
    · cases hc
    · split at hc
      · cases hc
      · next hany =>
        -- the row looked up is the one with this key
        have hrow : row = S.apply t p r := by
          have hmem : row ∈ (S.lookup db t id).map (S.apply t p) := by
            rw [hrows]
            exact List.mem_cons_self
          obtain ⟨r₀, hr₀, rfl⟩ := List.mem_map.mp hmem
          obtain ⟨hr₀, hid₀⟩ := List.mem_filter.mp hr₀
          have hid₀ : S.pk t r₀ = id := by simpa using hid₀
          rw [h.eq_of_pk hr₀ hr (hid₀.trans hid.symm)]
        subst hrow
        simp only [List.any_eq_true, not_exists, not_and, Bool.not_eq_true] at hany
        have hthis := hany r' hr'
        simpa [hne] using hthis

omit [DecidableEq Table] in
/-- An UPDATE of a row that is there, when no other row has its new indexed columns. -/
theorem check_update_apart (h : S.Consistent db) {t : Table} {p : Patch t} {r : Row t}
    (hr : r ∈ db t)
    (hapart : ∀ r' ∈ db t, S.pk t r' ≠ S.pk t r → S.clash t r' (S.apply t p r) = false) :
    S.check db (.update t (S.pk t r) p) = S.fits t (S.apply t p r) := by
  have hlookup : ∀ r' ∈ S.lookup db t (S.pk t r), r' = r := by
    intro r' hr'
    obtain ⟨hmem, hpk⟩ := List.mem_filter.mp hr'
    exact h.eq_of_pk hmem hr (by simpa using hpk)
  have hin : r ∈ S.lookup db t (S.pk t r) := List.mem_filter.mpr ⟨hr, by simp⟩
  simp only [check]
  cases hrows : S.lookup db t (S.pk t r) with
  | nil =>
    rw [hrows] at hin
    cases hin
  | cons row rows =>
    obtain rfl : row = r := hlookup row (by rw [hrows]; exact List.mem_cons_self)
    cases hfit : S.fits t (S.apply t p row) with
    | some v => simp [hfit]
    | none =>
      have hfree : (db t).any (fun r' => decide (S.pk t r' ≠ S.pk t row) &&
          S.clash t r' (S.apply t p row)) = false := by
        rw [List.any_eq_false]
        intro r' hr' hboth
        simp only [Bool.and_eq_true, decide_eq_true_eq] at hboth
        rw [hapart r' hr' hboth.1] at hboth
        cases hboth.2
      simp only [List.map_cons, hfit, hfree]
      rfl

omit [DecidableEq Table] in
/-- An UPDATE that leaves the indexed columns alone is decided by the column
    constraints of its row. -/
theorem check_update_eq (hS : S.Regular) (h : S.Consistent db) {t : Table} {p : Patch t} {r : Row t}
    (hr : r ∈ db t) (hindex : ∀ r', S.clash t r' (S.apply t p r) = S.clash t r' r) :
    S.check db (.update t (S.pk t r) p) = S.fits t (S.apply t p r) := by
  refine check_update_apart h hr fun r' hr' hne => ?_
  rw [hindex]
  -- two rows of the table do not clash
  refine Bool.eq_false_iff.mpr fun hclash => hne ?_
  exact congrArg (S.pk t) (h.eq_of_clash hS hr' hr hclash)

theorem consistent_update (hS : S.Regular) (h : S.Consistent db) {t : Table} {id : Id}
    {p : Patch t} (hc : S.check db (.update t id p) = none) :
    S.Consistent (S.effect (.update t id p) db) := by
  -- a patch touches no key: no target vanishes, and no row points elsewhere
  have hcol : ∀ (r : Row t), ∀ k ∈ S.keys t, k.column (S.patched t id p r) = k.column r := by
    intro r k hk
    unfold patched
    split
    · exact hS.apply_column t p r k hk
    · rfl
  have hkeep : ∀ t' (q : Id), (db t').any (fun r => decide (S.pk t' r = q)) = true →
      (S.effect (.update t id p) db t').any (fun r => decide (S.pk t' r = q)) = true := by
    intro t' q hq
    by_cases ht : t = t'
    · subst ht
      rw [effect_update_self, List.any_map]
      simpa [Function.comp_def] using hq
    · rw [effect_update_ne _ _ _ ht]
      exact hq
  refine ⟨?_, ?_, ?_⟩
  · intro t'
    by_cases ht : t = t'
    · subst ht
      rw [effect_update_self, List.pairwise_map]
      refine (h.distinct t).imp ?_
      intro a b hab
      simpa using hab
    · rw [effect_update_ne _ _ _ ht]
      exact h.distinct t'
  · intro t'
    by_cases ht : t = t'
    · subst ht
      rw [effect_update_self, List.pairwise_map]
      refine ((h.distinct t).and (h.indexed t)).imp_of_mem ?_
      intro a b ha hb hab
      obtain ⟨hne, hcl⟩ := hab
      -- one of the two is the row written, or neither is
      by_cases hida : S.pk t a = id
      · have hidb : S.pk t b ≠ id := by
          rw [← hida]
          exact hne.symm
        rw [patched_of_eq hida, patched_of_ne hidb, hS.clash_comm]
        exact check_update_clash h hc ha hida hb hidb
      · by_cases hidb : S.pk t b = id
        · rw [patched_of_ne hida, patched_of_eq hidb]
          exact check_update_clash h hc hb hidb ha hida
        · rw [patched_of_ne hida, patched_of_ne hidb]
          exact hcl
    · rw [effect_update_ne _ _ _ ht]
      exact h.indexed t'
  · intro t' r hr
    by_cases ht : t = t'
    · subst ht
      obtain ⟨r₀, hr₀, rfl⟩ := mem_effect_update.mp hr
      exact anchored_of_columns hkeep (hcol r₀) (h.anchored t r₀ hr₀)
    · rw [effect_update_ne _ _ _ ht] at hr
      exact anchored_of_columns hkeep (fun _ _ => rfl) (h.anchored t' r hr)

/-- A row that stays keeps its foreign keys, or has them cleared. -/
theorem anchored_delete (hS : S.Regular) (h : S.Consistent db) {t₀ t : Table} {i₀ : Id}
    {r : Row t} (hr : r ∈ db t) (hstay : (t, S.pk t r) ∉ S.doomed db t₀ i₀) :
    S.anchored (S.effect (.remove (S.doomed db t₀ i₀)) db) t
      (S.null_out (S.doomed db t₀ i₀) t r) = true := by
  unfold anchored
  rw [List.all_eq_true]
  intro k hk
  cases hcol : k.column (S.null_out (S.doomed db t₀ i₀) t r) with
  | none => rfl
  | some j =>
    have hcol₀ : k.column r = some j := by
      have hleft : k.column (S.null_out (S.doomed db t₀ i₀) t r) = k.column r ∨
          k.column (S.null_out (S.doomed db t₀ i₀) t r) = none := column_null_out hS hk r
      rcases hleft with heq | hnone
      · rw [← heq, hcol]
      · rw [hnone] at hcol
        cases hcol
    obtain ⟨p, hp, hpk⟩ := h.target hr hk hcol₀
    have hp_stays : (k.target, S.pk k.target p) ∉ S.doomed db t₀ i₀ := by
      intro hgone
      have hit : k.hits (S.doomed db t₀ i₀) r = true := by
        simp [ForeignKey.hits, hcol₀, ← hpk, hgone]
      cases hc : k.cascades with
      | true => exact hstay (doomed_closed hS.stratified (hS.ordered t) hr hk hc hit)
      | false =>
        rw [column_null_out_of_hits hS hk hc hit] at hcol
        cases hcol
    refine List.any_eq_true.mpr ⟨S.null_out (S.doomed db t₀ i₀) k.target p, ?_, ?_⟩
    · exact mem_effect_remove.mpr ⟨p, hp, hp_stays, rfl⟩
    · simp [hpk]

theorem consistent_delete (hS : S.Regular) (h : S.Consistent db) (t₀ : Table) (i₀ : Id) :
    S.Consistent (S.effect (.remove (S.doomed db t₀ i₀)) db) := by
  refine ⟨?_, ?_, ?_⟩
  · intro t
    rw [effect_remove, List.pairwise_map]
    refine ((h.distinct t).filter _).imp ?_
    intro a b hab
    simpa using hab
  · intro t
    rw [effect_remove, List.pairwise_map]
    refine ((h.indexed t).filter _).imp ?_
    intro a b hab
    rw [clash_null_out hS]
    exact hab
  · intro t r hr
    obtain ⟨r₀, hr₀, hstay, rfl⟩ := mem_effect_remove.mp hr
    exact anchored_delete hS h hr₀ hstay

/-- **Integrity.** Whatever the statement, and whatever the database answers,
    the store stays consistent. -/
theorem consistent_attempt (hS : S.Regular) (h : S.Consistent db) (w : Write Row Patch Id) :
    S.Consistent (S.attempt w db).2 := by
  unfold attempt
  cases hc : S.check db w with
  | some v => exact h
  | none =>
    cases w with
    | insert t row => exact consistent_insert h hc
    | update t id p => exact consistent_update hS h hc
    | delete t id => exact consistent_delete hS h t id

theorem consistent_admitted (hS : S.Regular) (h : S.Consistent db) {w : Write Row Patch Id}
    (hc : S.check db w = none) : S.Consistent (S.effect (S.resolve db w) db) := by
  have hatt := consistent_attempt hS h w
  simpa only [attempt, hc] using hatt

/-- Rows rewritten in place, with their keys and indexed columns as they were: the store
    stays consistent. For changes made from outside, by no statement of the programs. -/
theorem Consistent.rewritten (hS : S.Regular) (h : S.Consistent db) {t : Table} {f : Row t → Row t}
    (hpk : ∀ r, S.pk t (f r) = S.pk t r) (hclash : ∀ a b, S.clash t (f a) b = S.clash t a b)
    (hcol : ∀ r, ∀ k ∈ S.keys t, k.column (f r) = k.column r) :
    S.Consistent (db.set t ((db t).map f)) := by
  have hclash' : ∀ a b, S.clash t (f a) (f b) = S.clash t a b := by
    intro a b
    rw [hclash, hS.clash_comm, hclash, hS.clash_comm]
  have hkeep : ∀ t' (q : Id), (db t').any (fun r => decide (S.pk t' r = q)) = true →
      (db.set t ((db t).map f) t').any (fun r => decide (S.pk t' r = q)) = true := by
    intro t' q hq
    by_cases ht : t = t'
    · subst ht
      rw [Db.set_self, List.any_map]
      simpa only [Function.comp_def, hpk] using hq
    · rwa [Db.set_ne _ _ ht]
  refine ⟨?_, ?_, ?_⟩
  · intro t'
    by_cases ht : t = t'
    · subst ht
      rw [Db.set_self, List.pairwise_map]
      exact (h.distinct t).imp (fun hab => by rwa [hpk, hpk])
    · rw [Db.set_ne _ _ ht]
      exact h.distinct t'
  · intro t'
    by_cases ht : t = t'
    · subst ht
      rw [Db.set_self, List.pairwise_map]
      exact (h.indexed t).imp (fun hab => by rwa [hclash'])
    · rw [Db.set_ne _ _ ht]
      exact h.indexed t'
  · intro t' r hr
    by_cases ht : t = t'
    · subst ht
      rw [Db.set_self] at hr
      obtain ⟨r₀, hr₀, rfl⟩ := List.mem_map.mp hr
      exact anchored_of_columns hkeep (hcol r₀) (h.anchored t r₀ hr₀)
    · rw [Db.set_ne _ _ ht] at hr
      exact anchored_of_columns hkeep (fun _ _ => rfl) (h.anchored t' r hr)

/-! ### Column constraints -/

/-- Every row meets the column lengths and the CHECK constraints. -/
def Fitting (S : Schema Table Row Patch Id) (db : Db Row) : Prop :=
  ∀ t, ∀ r ∈ db t, S.fits t r = none

/-- Clearing a column breaks no CHECK constraint. -/
def Clearable (S : Schema Table Row Patch Id) : Prop :=
  ∀ t, ∀ k ∈ S.keys t, ∀ clear, k.on_delete = .set_null clear →
    ∀ r, S.fits t r = none → S.fits t (clear r) = none

theorem Fitting.insert (h : S.Fitting db) {t : Table} {row : Row t}
    (hc : S.check db (.insert t row) = none) : S.Fitting (S.effect (.insert t row) db) := by
  intro t' r hr
  by_cases ht : t = t'
  · subst ht
    rcases mem_effect_insert.mp hr with hold | rfl
    · exact h t r hold
    · exact (check_insert hc).1
  · rw [effect_insert_ne _ _ ht] at hr
    exact h t' r hr

omit [DecidableEq Table] in
/-- The row an UPDATE writes was checked. -/
theorem check_update_fits (h : S.Consistent db) {t : Table} {id : Id} {p : Patch t}
    (hc : S.check db (.update t id p) = none) {r : Row t} (hr : r ∈ db t) (hid : S.pk t r = id) :
    S.fits t (S.apply t p r) = none := by
  simp only [check] at hc
  split at hc
  · cases hc
  · next row rows hrows =>
    have hmem : row ∈ (S.lookup db t id).map (S.apply t p) := by
      rw [hrows]
      exact List.mem_cons_self
    obtain ⟨r₀, hr₀, rfl⟩ := List.mem_map.mp hmem
    obtain ⟨hr₀, hid₀⟩ := List.mem_filter.mp hr₀
    have hid₀ : S.pk t r₀ = id := by simpa using hid₀
    rw [h.eq_of_pk hr hr₀ (hid.trans hid₀.symm)]
    split at hc
    · cases hc
    · assumption

theorem Fitting.update (h : S.Fitting db) (hcons : S.Consistent db) {t : Table} {id : Id}
    {p : Patch t} (hc : S.check db (.update t id p) = none) :
    S.Fitting (S.effect (.update t id p) db) := by
  intro t' r hr
  by_cases ht : t = t'
  · subst ht
    obtain ⟨r₀, hr₀, rfl⟩ := mem_effect_update.mp hr
    by_cases hid : S.pk t r₀ = id
    · rw [patched_of_eq hid]
      exact check_update_fits hcons hc hr₀ hid
    · rw [patched_of_ne hid]
      exact h t r₀ hr₀
  · rw [effect_update_ne _ _ _ ht] at hr
    exact h t' r hr

theorem Fitting.delete (h : S.Fitting db) (hclear : S.Clearable) (t₀ : Table) (i₀ : Id) :
    S.Fitting (S.effect (.remove (S.doomed db t₀ i₀)) db) := by
  intro t r hr
  obtain ⟨r₀, hr₀, _, rfl⟩ := mem_effect_remove.mp hr
  refine foldl_nulled_keeps (fun r' => S.fits t r' = none) ?_ (h t r₀ hr₀)
  intro k hk clear hod r' hr'
  exact hclear t k hk clear hod r' hr'

/-- **Constraints.** The column constraints survive every statement too. -/
theorem Fitting.attempt (h : S.Fitting db) (hclear : S.Clearable) (hcons : S.Consistent db)
    (w : Write Row Patch Id) : S.Fitting (S.attempt w db).2 := by
  unfold Schema.attempt
  cases hc : S.check db w with
  | some v => exact h
  | none =>
    cases w with
    | insert t row => exact h.insert hc
    | update t id p => exact h.update hcons hc
    | delete t id => exact h.delete hclear t id

theorem Fitting.admitted (h : S.Fitting db) (hclear : S.Clearable) (hcons : S.Consistent db)
    {w : Write Row Patch Id} (hc : S.check db w = none) :
    S.Fitting (S.effect (S.resolve db w) db) := by
  have hatt := h.attempt hclear hcons w
  simpa only [Schema.attempt, hc] using hatt

end Schema

end Relational
