import CounselReady.Framework.ReadCommitted

/-! # Single Use

    What a transaction uses up must not be used up again. The rows show whether
    something is spent, but nothing makes a transaction look when it commits.

    `run_once` is the rule: if a commit leaves what it spends shown as spent, if
    the commits that follow leave it so until one renews it, and if no commit
    finds what it spends shown as spent, then nothing is spent twice between two
    renewals.
-/

namespace Framework

open Relational

variable {Table Id Ext : Type} {Row Patch : Table → Type} {Answer : Ext → Type}
  {ε α σ K Tok : Type} [DecidableEq Table] [DecidableEq Id]
  {S : Schema Table Row Patch Id} {run_ext : (e : Ext) → σ → Answer e × σ}
  {prog : K → DbProg Row Patch Id Answer ε α}

/-! ### A commit of a run -/

/-- A transaction that is about to commit, and the rows it will leave. -/
structure Commits (S : Schema Table Row Patch Id) (run_ext : (e : Ext) → σ → Answer e × σ)
    (prog : K → DbProg Row Patch Id Answer ε α)
    (may : List (Move K × Shared Row Patch Id Answer ε α σ K) →
      Shared Row Patch Id Answer ε α σ K → Move K → Prop)
    (s₀ : Shared Row Patch Id Answer ε α σ K)
    (past : List (Move K × Shared Row Patch Id Answer ε α σ K))
    (s : Shared Row Patch Id Answer ε α σ K) (f : Flight Row Patch Id Answer ε α K) (db : Db Row) :
    Prop where
  run : Run (Moves S run_ext prog) may s₀ past s
  genuine : Genuine S run_ext prog past f
  allowed : ∃ n, may past s (.commit n) ∧ s.running n = some f
  returned : ∃ a, f.rest = .ret a
  redone : redo S f.log s.db = some db

section commits
variable {may : List (Move K × Shared Row Patch Id Answer ε α σ K) →
    Shared Row Patch Id Answer ε α σ K → Move K → Prop}
  {s₀ s s' : Shared Row Patch Id Answer ε α σ K}
  {past : List (Move K × Shared Row Patch Id Answer ε α σ K)}

/-- **Inversion.** A move leaves the rows, or commits. -/
theorem Moves.commits_or (hr : Run (Moves S run_ext prog) may s₀ past s)
    (h0 : ∀ n, s₀.running n = none) {m : Move K} (hmay : may past s m)
    (hmove : Moves S run_ext prog s m s') :
    (s'.db = s.db ∧ committed ((m, s) :: past) = committed past) ∨
      ∃ f, committed ((m, s) :: past) = f :: committed past ∧
        Commits S run_ext prog may s₀ past s f s'.db := by
  rcases hmove.commits past with hsame | ⟨n, f, a, rfl, hflies, hret, hredo, hnew⟩
  · exact .inl hsame
  · exact .inr ⟨f, hnew, hr, (run_genuine hr h0).1 n f hflies, ⟨n, hmay, hflies⟩, ⟨a, hret⟩, hredo⟩

/-! ### The rule -/

/-- Of two transactions that spend the same, the later one comes after a renewal. -/
def SpentOnce (spends renews : Flight Row Patch Id Answer ε α K → Tok → Prop)
    (past : List (Move K × Shared Row Patch Id Answer ε α σ K)) : Prop :=
  ∀ later g between f earlier tok, committed past = later ++ g :: (between ++ f :: earlier) →
    (∀ h ∈ between, ¬ renews h tok) → spends f tok → ¬ spends g tok

/-- **Single-use rule.** If spending a token shows in the rows until it is renewed, and no
    transaction commits that spends a token which is shown, then tokens are spent once. -/
theorem run_once {spends renews : Flight Row Patch Id Answer ε α K → Tok → Prop}
    (shown : Tok → Db Row → Prop) (hr : Run (Moves S run_ext prog) may s₀ past s)
    (h0 : ∀ n, s₀.running n = none)
    (hshows : ∀ past s f db, Commits S run_ext prog may s₀ past s f db →
      ∀ tok, spends f tok → shown tok db)
    (hstays : ∀ past s f db, Commits S run_ext prog may s₀ past s f db →
      ∀ tok, ¬ renews f tok → shown tok s.db → shown tok db)
    (hlooks : ∀ past s f db, Commits S run_ext prog may s₀ past s f db →
      ∀ tok, spends f tok → ¬ shown tok s.db) : SpentOnce spends renews past := by
  -- what has been spent, and not renewed since, is shown
  let Shown : List (Move K × Shared Row Patch Id Answer ε α σ K) →
      Shared Row Patch Id Answer ε α σ K → Prop := fun past s =>
    ∀ between f earlier tok, committed past = between ++ f :: earlier →
      (∀ h ∈ between, ¬ renews h tok) → spends f tok → shown tok s.db
  have hboth : Shown past s ∧ SpentOnce spends renews past := by
    refine hr.invariant (I := fun past s => Shown past s ∧ SpentOnce spends renews past) ?_ ?_
    · constructor
      · intro between f earlier tok hnil
        exact absurd hnil.symm (by simp [committed])
      · intro later g between f earlier tok hnil
        exact absurd hnil.symm (by simp [committed])
    · rintro past s m s' hrun ⟨hshown, honce⟩ hmay hmove
      rcases hmove.commits_or hrun h0 hmay with ⟨hdb, hsame⟩ | ⟨f₁, hnew, hcommits⟩
      · unfold SpentOnce
        constructor
        · intro between f earlier tok
          rw [hsame, hdb]
          exact hshown between f earlier tok
        · rw [hsame]
          exact honce
      · constructor
        · intro between f earlier tok hpast hrenews hspends
          rw [hnew] at hpast
          cases between with
          | nil =>
            obtain ⟨rfl, _⟩ := List.cons.inj hpast
            exact hshows past s _ _ hcommits tok hspends
          | cons h between =>
            obtain ⟨rfl, htail⟩ := List.cons.inj hpast
            refine hstays past s _ _ hcommits tok (hrenews _ List.mem_cons_self) ?_
            refine hshown between f earlier tok htail (fun h' hh' => ?_) hspends
            exact hrenews h' (List.mem_cons_of_mem _ hh')
        · intro later g between f earlier tok hpast hrenews hspends hagain
          rw [hnew] at hpast
          cases later with
          | nil =>
            obtain ⟨rfl, htail⟩ := List.cons.inj hpast
            exact hlooks past s _ _ hcommits tok hagain
              (hshown between f earlier tok htail hrenews hspends)
          | cons h later =>
            obtain ⟨_, htail⟩ := List.cons.inj hpast
            exact honce later g between f earlier tok htail hrenews hspends hagain
  exact hboth.2

/-- Two transactions that are both ready, one committed after the other. -/
theorem run_two_commits (hr : Run (Moves S run_ext prog) unrestricted s₀ past s) {n m : Nat}
    (hne : m ≠ n) {f g : Flight Row Patch Id Answer ε α K} (hf : s.running n = some f)
    (hg : s.running m = some g) {s₁ s₂ : Shared Row Patch Id Answer ε α σ K}
    (h₁ : advance S run_ext prog (.commit n) s = some s₁)
    (h₂ : advance S run_ext prog (.commit m) s₁ = some s₂) :
    ∃ past', Run (Moves S run_ext prog) unrestricted s₀ past' s₂ ∧
      committed past' = g :: f :: committed past := by
  have hmove₁ := advance_moves h₁
  have hrun₁ := hr.next (.commit n) trivial hmove₁
  have hg₁ : s₁.running m = some g := by
    cases hmove₁ with
    | commit flies returned holds =>
      show s.put n none m = some g
      rw [Shared.put_ne _ _ hne]
      exact hg
  refine ⟨_, hrun₁.next (.commit m) trivial (advance_moves h₂), ?_⟩
  have hlast : landed ((.commit m, s₁) : Move K × Shared Row Patch Id Answer ε α σ K) = some g := hg₁
  have hfirst : landed ((.commit n, s) : Move K × Shared Row Patch Id Answer ε α σ K) = some f := hf
  rw [committed, List.filterMap_cons_some hlast, List.filterMap_cons_some hfirst]
  rfl

end commits

/-! ### A log around one of its statements -/

omit [DecidableEq Table] [DecidableEq Id] in
theorem wrote_cons (x : Prog.Exchange (db_sig Row Patch Id Answer))
    (l : List (Prog.Exchange (db_sig Row Patch Id Answer))) :
    wrote (x :: l) = wrote l ++ wrote [x] := by
  obtain ⟨o, r⟩ := x
  cases o with
  | write w =>
    cases r with
    | ok u => rfl
    | error v => exact (List.append_nil (wrote l)).symm
  | select t p => exact (List.append_nil (wrote l)).symm
  | snapshot => exact (List.append_nil (wrote l)).symm
  | ext e => exact (List.append_nil (wrote l)).symm

omit [DecidableEq Table] [DecidableEq Id] in
theorem wrote_append (l l' : List (Prog.Exchange (db_sig Row Patch Id Answer))) :
    wrote (l ++ l') = wrote l' ++ wrote l := by
  induction l with
  | nil => exact (List.append_nil _).symm
  | cons x l ih =>
    show wrote (x :: (l ++ l')) = _
    rw [wrote_cons x (l ++ l'), ih, wrote_cons x l, List.append_assoc]

omit [DecidableEq Table] [DecidableEq Id] in
theorem mem_wrote_of_mem {l : List (Prog.Exchange (db_sig Row Patch Id Answer))}
    {w : Write Row Patch Id} (h : ⟨.write w, .ok ()⟩ ∈ l) : w ∈ wrote l := by
  obtain ⟨later, before, rfl⟩ := List.append_of_mem h
  rw [wrote_append, wrote_cons]
  exact List.mem_append_left _ (List.mem_append_right _ (List.mem_singleton_self w))

/-- **Split rule.** The statements before one, that one, and the statements after it. -/
theorem redo_split {ws ws' : List (Write Row Patch Id)} {w : Write Row Patch Id} {db db' : Db Row}
    (h : redo S (ws ++ w :: ws') db = some db') :
    ∃ db₁, redo S ws db = some db₁ ∧ S.check db₁ w = none ∧
      redo S ws' (S.effect (S.resolve db₁ w) db₁) = some db' := by
  induction ws generalizing db with
  | nil =>
    obtain ⟨hchk, hrest⟩ := redo_cons h
    exact ⟨db, rfl, hchk, hrest⟩
  | cons w₀ ws ih =>
    obtain ⟨hchk, hrest⟩ := redo_cons h
    obtain ⟨db₁, hws, hw, hws'⟩ := ih hrest
    refine ⟨db₁, ?_, hw, hws'⟩
    show redo S (w₀ :: ws) db = _
    simp only [redo, hchk]
    exact hws

end Framework
