import CounselReady.Framework.Transaction

/-! # Two Stores Side by Side

    One program run from two stores that differ. Where each SELECT finds the same
    rows in both, and each INSERT is checked against the same rows, the two runs
    end the same way and add the same rows.

    * `SameOn`: two stores have the same rows under a predicate.
    * `Abreast`: two transactions that have added the same rows so far.
-/

namespace Framework

open Relational

variable {Table Id Ext : Type} {Row Patch : Table → Type} {Answer : Ext → Type}
  {ε α β σ : Type}

/-! ### The same rows -/

/-- The same rows, in the same order, meet `p` in both stores. -/
def SameOn (db₁ db₂ : Db Row) (t : Table) (p : Row t → Bool) : Prop :=
  (db₁ t).filter p = (db₂ t).filter p

/-- The store with rows added to each table. -/
def grown (db added : Db Row) : Db Row := fun t => db t ++ added t

section same_on
variable {db₁ db₂ added : Db Row} {t : Table} {p q : Row t → Bool}

theorem SameOn.mem (h : SameOn db₁ db₂ t p) {r : Row t} (hr : r ∈ db₁ t) (hp : p r = true) :
    r ∈ db₂ t := by
  have hmem : r ∈ (db₁ t).filter p := List.mem_filter.mpr ⟨hr, hp⟩
  rw [h] at hmem
  exact (List.mem_filter.mp hmem).1

theorem SameOn.any (h : SameOn db₁ db₂ t p) : (db₁ t).any p = (db₂ t).any p := by
  have hany : ∀ l : List (Row t), l.any p = (l.filter p).any (fun _ => true) := by
    intro l
    rw [List.any_filter]
    simp
  rw [hany, hany, h]

theorem same_on_none (h₁ : ∀ r ∈ db₁ t, p r = false) (h₂ : ∀ r ∈ db₂ t, p r = false) :
    SameOn db₁ db₂ t p := by
  have hnone : ∀ l : List (Row t), (∀ r ∈ l, p r = false) → l.filter p = [] := by
    intro l hl
    rw [List.filter_eq_nil_iff]
    intro r hr
    simp [hl r hr]
  unfold SameOn
  rw [hnone _ h₁, hnone _ h₂]

/-- Rows picked from a part on which the stores agree. -/
theorem same_on_of_parts {own₁ own₂ : Row t → Bool}
    (h : (db₁ t).filter own₁ = (db₂ t).filter own₂)
    (h₁ : ∀ r ∈ db₁ t, p r = true → own₁ r = true)
    (h₂ : ∀ r ∈ db₂ t, p r = true → own₂ r = true) : SameOn db₁ db₂ t p := by
  have hpart : ∀ (l : List (Row t)) (own : Row t → Bool),
      (∀ r ∈ l, p r = true → own r = true) → l.filter p = (l.filter own).filter p := by
    intro l own hl
    rw [List.filter_filter]
    apply List.filter_congr
    intro r hr
    by_cases hp : p r = true
    · simp [hp, hl r hr hp]
    · simp [hp]
  unfold SameOn
  rw [hpart _ own₁ h₁, hpart _ own₂ h₂, h]

theorem SameOn.narrow (h : SameOn db₁ db₂ t p) (h₁ : ∀ r ∈ db₁ t, q r = true → p r = true)
    (h₂ : ∀ r ∈ db₂ t, q r = true → p r = true) : SameOn db₁ db₂ t q :=
  same_on_of_parts h h₁ h₂

theorem SameOn.grown (h : SameOn db₁ db₂ t p) (added : Db Row) :
    SameOn (grown db₁ added) (grown db₂ added) t p := by
  show (db₁ t ++ added t).filter p = (db₂ t ++ added t).filter p
  rw [List.filter_append, List.filter_append, h]

end same_on

/-! ### Programs that call nothing -/

theorem Prog.do_assoc {S : Signature} {γ : Type} (p : Prog S ε α) (f : α → Prog S ε β)
    (g : β → Prog S ε γ) : (p >>= f) >>= g = p >>= fun a => f a >>= g := Prog.bind_assoc p f g

/-- A program that calls nothing ends the same way wherever it is run. -/
theorem Prog.Every.exec_idle {S : Signature} {p : Prog S ε α} (hp : Prog.Every (fun _ => False) p) :
    ∃ r, ∀ {σ : Type} (h : Prog.Handler S σ) (s : σ), p.exec h s = (r, s) := by
  cases p with
  | ret a => exact ⟨.ok a, fun _ _ => rfl⟩
  | raise e => exact ⟨.error e, fun _ _ => rfl⟩
  | call o k => exact absurd ((Prog.every_call o k).mp hp).1 id

theorem Prog.wp₂_idle {S : Signature} {h : Prog.Handler S σ} {p : Prog S ε α}
    {Q : Except ε α → σ → σ → Prop} {s₁ s₂ : σ} (hp : Prog.Every (fun _ => False) p)
    (hQ : ∀ r, Q r s₁ s₂) : Prog.wp₂ h p p Q s₁ s₂ := by
  obtain ⟨r, hr⟩ := hp.exec_idle
  unfold Prog.wp₂
  rw [hr h s₁, hr h s₂]
  exact ⟨rfl, hQ r⟩

/-! ### Two programs from one state -/

section one_state
variable {S : Signature} {h : Prog.Handler S σ} {p p' : Prog S ε α}
  {Q : Except ε α → σ → σ → Prop} {s s₁ s₂ : σ}

/-- A program beside itself. -/
theorem Prog.wp₂_self (hp : Prog.wp h p (fun r t => Q r t t) s) : Prog.wp₂ h p p Q s s :=
  ⟨rfl, Prog.wp_exec hp (Prod.eta _).symm⟩

/-- Programs that are known to end alike, each by itself. -/
theorem Prog.wp₂_of_ends {x : Except ε α} {t₁ t₂ : σ}
    (hp : Prog.wp h p (fun r t => r = x ∧ t = t₁) s₁)
    (hp' : Prog.wp h p' (fun r t => r = x ∧ t = t₂) s₂) (hQ : Q x t₁ t₂) :
    Prog.wp₂ h p p' Q s₁ s₂ := by
  obtain ⟨hr₁, ht₁⟩ := Prog.wp_exec hp (Prod.eta _).symm
  obtain ⟨hr₂, ht₂⟩ := Prog.wp_exec hp' (Prod.eta _).symm
  unfold Prog.wp₂
  rw [hr₁, ht₁, hr₂, ht₂]
  exact ⟨rfl, hQ⟩

end one_state

/-! ### Two transactions -/

/-- Two transactions that have added the same rows to their stores. `E` relates what
    lies outside. -/
structure Abreast (db₁ db₂ : Db Row) (E : σ → σ → Prop) (s₁ s₂ : Tx Row σ) : Prop where
  rows : ∃ added, s₁.db = grown db₁ added ∧ s₂.db = grown db₂ added
  faults : s₁.faults = s₂.faults
  ext : E s₁.ext s₂.ext

theorem abreast_begin {db₁ db₂ : Db Row} {E : σ → σ → Prop} {e₁ e₂ : σ} (faults : List Bool)
    (hE : E e₁ e₂) :
    Abreast db₁ db₂ E ⟨db₁, e₁, faults⟩ ⟨db₂, e₂, faults⟩ where
  rows := by
    refine ⟨fun _ => [], ?_, ?_⟩
    all_goals
      funext t
      exact (List.append_nil _).symm
  faults := rfl
  ext := hE

variable [DecidableEq Table] [DecidableEq Id]

/-- What an INSERT is checked against is the same in both stores: the rows it could
    collide with, and the rows it points at. -/
structure AdmitsAlike (S : Schema Table Row Patch Id) (db₁ db₂ : Db Row) (t : Table)
    (row : Row t) : Prop where
  rows : SameOn db₁ db₂ t (fun r => decide (S.pk t r = S.pk t row) || S.clash t r row)
  targets : ∀ k ∈ S.keys t, ∀ j, k.column row = some j →
    SameOn db₁ db₂ k.target (fun p => decide (S.pk k.target p = j))

section two_runs
variable {S : Schema Table Row Patch Id} {run_ext : (e : Ext) → σ → Answer e × σ}
  {db₁ db₂ : Db Row} {E : σ → σ → Prop} {s₁ s₂ : Tx Row σ}

omit [DecidableEq Table] in
theorem AdmitsAlike.check {t : Table} {row : Row t} (h : AdmitsAlike S db₁ db₂ t row)
    (added : Db Row) : S.check (grown db₁ added) (.insert t row) =
      S.check (grown db₂ added) (.insert t row) := by
  have hrows := (h.rows.grown added).any
  have hanchored : S.anchored (grown db₁ added) t row = S.anchored (grown db₂ added) t row := by
    unfold Schema.anchored
    rw [Bool.eq_iff_iff, List.all_eq_true, List.all_eq_true]
    refine forall₂_congr fun k hk => ?_
    cases hcol : k.column row with
    | none => exact Iff.rfl
    | some j =>
      have htarget := ((h.targets k hk j hcol).grown added).any
      dsimp only
      rw [htarget]
  simp only [Schema.check, hrows, hanchored]

theorem grown_insert (db added : Db Row) (t : Table) (row : Row t) :
    S.effect (.insert t row) (grown db added) = grown db (S.effect (.insert t row) added) := by
  funext t'
  by_cases htt : t = t'
  · subst htt
    rw [Schema.effect_insert_self]
    show _ = db t ++ S.effect (.insert t row) added t
    rw [Schema.effect_insert_self]
    exact List.append_assoc _ _ _
  · rw [Schema.effect_insert_ne _ _ htt]
    show _ = db t' ++ S.effect (.insert t row) added t'
    rw [Schema.effect_insert_ne _ _ htt]
    rfl

open Prog

theorem wp₂_select {t : Table} {p : Row t → Bool} {Q : Except ε (List (Row t)) → _ → _ → Prop}
    (h : Abreast db₁ db₂ E s₁ s₂) (hsame : SameOn db₁ db₂ t p)
    (hQ : Q (.ok ((s₁.db t).filter p)) s₁ s₂) :
    wp₂ (perform S run_ext) (select t p) (select t p) Q s₁ s₂ := by
  obtain ⟨added, h₁, h₂⟩ := h.rows
  refine wp₂_call ?_ (wp₂_pure hQ)
  show (s₁.db t).filter p = (s₂.db t).filter p
  rw [h₁, h₂]
  exact hsame.grown added

theorem perform_down (S : Schema Table Row Patch Id) (run_ext : (e : Ext) → σ → Answer e × σ)
    (wr : Write Row Patch Id) {s : Tx Row σ} (h : s.faults.head? = some true) :
    perform S run_ext (.write wr) s = (.error .unavailable, { s with faults := s.faults.tail }) :=
  if_pos h

theorem perform_up (S : Schema Table Row Patch Id) (run_ext : (e : Ext) → σ → Answer e × σ)
    (wr : Write Row Patch Id) {s : Tx Row σ} (h : ¬ s.faults.head? = some true) :
    perform S run_ext (.write wr) s =
      ((S.attempt wr s.db).1, { s with db := (S.attempt wr s.db).2, faults := s.faults.tail }) :=
  if_neg h

/-- An INSERT is refused in both, or carried out in both. -/
theorem wp₂_insert {inj : Violation → ε} {t : Table} {row : Row t}
    {Q : Except ε Unit → _ → _ → Prop} (h : Abreast db₁ db₂ E s₁ s₂)
    (hadmits : AdmitsAlike S db₁ db₂ t row)
    (hQ : ∀ r t₁ t₂, Abreast db₁ db₂ E t₁ t₂ → Q r t₁ t₂) :
    wp₂ (perform S run_ext) (execute inj (.insert t row)) (execute inj (.insert t row)) Q s₁ s₂ := by
  obtain ⟨added, h₁, h₂⟩ := h.rows
  -- what either has added since is the same, so the database says the same to both
  have hcheck : S.check s₁.db (.insert t row) = S.check s₂.db (.insert t row) := by
    rw [h₁, h₂]
    exact hadmits.check added
  have hfaults := h.faults
  have hidle : Abreast db₁ db₂ E { s₁ with faults := s₁.faults.tail }
      { s₂ with faults := s₂.faults.tail } :=
    ⟨h.rows, congrArg List.tail hfaults, h.ext⟩
  by_cases hfault : s₁.faults.head? = some true
  · -- neither statement gets through
    have hdown₁ := perform_down S run_ext (.insert t row) hfault
    have hdown₂ := perform_down S run_ext (.insert t row) (hfaults ▸ hfault)
    refine wp₂_call (by rw [hdown₁, hdown₂]) ?_
    rw [hdown₁, hdown₂]
    exact wp₂_raise (hQ _ _ _ hidle)
  · have hup₁ := perform_up S run_ext (.insert t row) hfault
    have hup₂ := perform_up S run_ext (.insert t row) (hfaults ▸ hfault)
    unfold Schema.attempt at hup₁ hup₂
    rw [← hcheck] at hup₂
    cases hchk : S.check s₁.db (.insert t row) with
    | some v =>
      rw [hchk] at hup₁ hup₂
      refine wp₂_call (by rw [hup₁, hup₂]) ?_
      rw [hup₁, hup₂]
      exact wp₂_raise (hQ _ _ _ hidle)
    | none =>
      rw [hchk] at hup₁ hup₂
      refine wp₂_call (by rw [hup₁, hup₂]) ?_
      rw [hup₁, hup₂]
      refine wp₂_pure (hQ _ _ _ ⟨⟨S.effect (.insert t row) added, ?_, ?_⟩, ?_, h.ext⟩)
      · rw [← grown_insert, ← h₁]
        rfl
      · rw [← grown_insert, ← h₂]
        rfl
      · exact congrArg List.tail hfaults

/-- A call on the outside that both answer the same way. -/
theorem wp₂_perform_ext {e : Ext} {Q : Except ε (Answer e) → _ → _ → Prop}
    (h : Abreast db₁ db₂ E s₁ s₂) (hanswer : (run_ext e s₁.ext).1 = (run_ext e s₂.ext).1)
    (hE : E (run_ext e s₁.ext).2 (run_ext e s₂.ext).2)
    (hQ : ∀ r t₁ t₂, Abreast db₁ db₂ E t₁ t₂ → Q r t₁ t₂) :
    wp₂ (perform S run_ext) (perform_ext e) (perform_ext e) Q s₁ s₂ :=
  wp₂_call hanswer (wp₂_pure (hQ _ _ _ ⟨h.rows, h.faults, hE⟩))

/-- **Two transactions.** Programs that stay abreast end the same way, and what they
    commit is the same rows added to both stores. -/
theorem transact_abreast {failure : ε} {commits : Bool} {faults : List Bool}
    {p : DbProg Row Patch Id Answer ε α} {w₁ w₂ : World Row σ}
    (h : wp₂ (perform S run_ext) p p (fun _ => Abreast w₁.db w₂.db E)
      ⟨w₁.db, w₁.ext, faults⟩ ⟨w₂.db, w₂.ext, faults⟩) :
    (transact S run_ext failure commits faults p w₁).1 =
        (transact S run_ext failure commits faults p w₂).1 ∧
      (∃ added, (transact S run_ext failure commits faults p w₁).2.db = grown w₁.db added ∧
        (transact S run_ext failure commits faults p w₂).2.db = grown w₂.db added) ∧
      E (transact S run_ext failure commits faults p w₁).2.ext
        (transact S run_ext failure commits faults p w₂).2.ext := by
  obtain ⟨hsame, hend⟩ := h
  unfold transact
  generalize p.exec (perform S run_ext) ⟨w₁.db, w₁.ext, faults⟩ = x₁ at hsame hend ⊢
  generalize p.exec (perform S run_ext) ⟨w₂.db, w₂.ext, faults⟩ = x₂ at hsame hend ⊢
  obtain ⟨r₁, t₁⟩ := x₁
  obtain ⟨r₂, t₂⟩ := x₂
  dsimp only at hsame hend
  subst hsame
  have hback : ∃ added, w₁.db = grown w₁.db added ∧ w₂.db = grown w₂.db added :=
    (abreast_begin (E := E) [] hend.ext).rows
  cases r₁ with
  | error e => exact ⟨rfl, hback, hend.ext⟩
  | ok a =>
    cases commits with
    | true => exact ⟨rfl, hend.rows, hend.ext⟩
    | false => exact ⟨rfl, hback, hend.ext⟩

end two_runs

end Framework
