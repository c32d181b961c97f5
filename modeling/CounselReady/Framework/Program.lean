import Mathlib.Logic.Basic

/-! # Programs over a Signature of Operations

    A program is a finite tree: it returns, it raises, or it calls one
    operation and continues with the answer. The operations themselves are
    left uninterpreted here, so the same tree can be

    * run to its end against one state (`exec`), as a request served alone;
    * run one call at a time between the calls of other programs, as in
      `Framework.ReadCommitted`.

    Three calculi go with it:

    * `wp`: what holds after `exec`, on return and on raise alike;
    * `wp₂`: what holds after two such runs, of one program or of two;
    * `Outline`: what holds at every call the program can make, whatever the
      operations answer. It is the calculus for interleaved runs, where the
      answers depend on the other programs.
-/

namespace Framework

/-- The operations a program may call, and the type of each answer. -/
structure Signature where
  Op : Type
  Res : Op → Type

inductive Prog (S : Signature) (ε α : Type) : Type where
  | ret (a : α)
  | raise (e : ε)
  | call (o : S.Op) (k : S.Res o → Prog S ε α)

namespace Prog

variable {S : Signature} {ε α β γ σ L : Type}

/-! ### Sequencing -/

def bind (p : Prog S ε α) (f : α → Prog S ε β) : Prog S ε β :=
  match p with
  | .ret a => f a
  | .raise e => .raise e
  | .call o k => .call o (fun r => (k r).bind f)

instance : Monad (Prog S ε) where
  pure := .ret
  bind := .bind

/-- `except` clauses that end in a `raise`: the exception is replaced, the
    operations already performed are not undone. -/
def rethrow (f : ε → ε) : Prog S ε α → Prog S ε α
  | .ret a => .ret a
  | .raise e => .raise (f e)
  | .call o k => .call o (fun r => (k r).rethrow f)

/-- `except` clauses that go on with a value: the exception is caught where `f`
    has one for it, and what was performed stays performed. -/
def caught (f : ε → Option α) : Prog S ε α → Prog S ε α
  | .ret a => .ret a
  | .raise e => match f e with
    | some a => .ret a
    | none => .raise e
  | .call o k => .call o (fun r => (k r).caught f)

theorem bind_def (p : Prog S ε α) (f : α → Prog S ε β) : (p >>= f) = p.bind f := rfl

theorem bind_assoc (p : Prog S ε α) (f : α → Prog S ε β) (g : β → Prog S ε γ) :
    (p.bind f).bind g = p.bind (fun a => (f a).bind g) := by
  induction p with
  | ret a => rfl
  | raise e => rfl
  | call o k ih => simp only [bind, ih]

theorem bind_ret (p : Prog S ε α) : p >>= pure = p := by
  rw [bind_def]
  induction p with
  | ret a => rfl
  | raise e => rfl
  | call o k ih => exact congrArg (Prog.call o) (funext ih)

/-- Nothing is caught. -/
@[simp] theorem caught_none (p : Prog S ε α) : p.caught (fun _ => none) = p := by
  induction p with
  | ret a => rfl
  | raise e => rfl
  | call o k ih => exact congrArg (Prog.call o) (funext ih)

/-! ### Running a program to its end -/

/-- How one state answers an operation. -/
abbrev Handler (S : Signature) (σ : Type) := (o : S.Op) → σ → S.Res o × σ

def exec (h : Handler S σ) : Prog S ε α → σ → Except ε α × σ
  | .ret a, s => (.ok a, s)
  | .raise e, s => (.error e, s)
  | .call o k, s => exec h (k (h o s).1) (h o s).2

/-- Weakest precondition of a run: `Q` sees how the program ended, and the
    state it left, after a return and after a raise. -/
def wp (h : Handler S σ) (p : Prog S ε α) (Q : Except ε α → σ → Prop) (s : σ) : Prop :=
  Q (p.exec h s).1 (p.exec h s).2

/-- What `p` must establish for `f`, run on its value, to establish `Q`. -/
def after (h : Handler S σ) (f : β → Prog S ε α) (Q : Except ε α → σ → Prop) :
    Except ε β → σ → Prop
  | .ok b, s => wp h (f b) Q s
  | .error e, s => Q (.error e) s

/-- What must hold before the exception is replaced. -/
def rethrown (g : ε → ε) (Q : Except ε α → σ → Prop) : Except ε α → σ → Prop
  | .ok a, s => Q (.ok a) s
  | .error e, s => Q (.error (g e)) s

/-- What must hold before the exception is caught. -/
def handled (f : ε → Option α) (Q : Except ε α → σ → Prop) : Except ε α → σ → Prop
  | .ok a, s => Q (.ok a) s
  | .error e, s => match f e with
    | some a => Q (.ok a) s
    | none => Q (.error e) s

section wp_rules
variable {h : Handler S σ} {Q : Except ε α → σ → Prop} {s : σ}

@[simp] theorem wp_ret (a : α) : wp h (.ret a) Q s ↔ Q (.ok a) s := Iff.rfl

@[simp] theorem wp_pure (a : α) : wp h (pure a) Q s ↔ Q (.ok a) s := Iff.rfl

@[simp] theorem wp_raise (e : ε) : wp h (.raise e) Q s ↔ Q (.error e) s := Iff.rfl

@[simp] theorem wp_call (o : S.Op) (k : S.Res o → Prog S ε α) :
    wp h (.call o k) Q s ↔ wp h (k (h o s).1) Q (h o s).2 := Iff.rfl

@[simp] theorem after_ok {f : β → Prog S ε α} {b : β} :
    after h f Q (.ok b) s ↔ wp h (f b) Q s := Iff.rfl

@[simp] theorem after_error {f : β → Prog S ε α} {e : ε} :
    after h f Q (.error e) s ↔ Q (.error e) s := Iff.rfl

@[simp] theorem rethrown_ok {g : ε → ε} {a : α} :
    rethrown g Q (.ok a) s ↔ Q (.ok a) s := Iff.rfl

@[simp] theorem rethrown_error {g : ε → ε} {e : ε} :
    rethrown g Q (.error e) s ↔ Q (.error (g e)) s := Iff.rfl

theorem handled_none {f : ε → Option α} {e : ε} (hf : f e = none) :
    handled f Q (.error e) s ↔ Q (.error e) s := by
  simp only [handled, hf]

theorem handled_some {f : ε → Option α} {e : ε} {a : α} (hf : f e = some a) :
    handled f Q (.error e) s ↔ Q (.ok a) s := by
  simp only [handled, hf]

@[simp] theorem wp_bind (p : Prog S ε β) (f : β → Prog S ε α) :
    wp h (p >>= f) Q s ↔ wp h p (after h f Q) s := by
  rw [bind_def]
  induction p generalizing s with
  | ret b => rfl
  | raise e => rfl
  | call o k ih => exact ih (h o s).1

@[simp] theorem wp_rethrow (g : ε → ε) (p : Prog S ε α) :
    wp h (p.rethrow g) Q s ↔ wp h p (rethrown g Q) s := by
  induction p generalizing s with
  | ret a => rfl
  | raise e => rfl
  | call o k ih => exact ih (h o s).1

@[simp] theorem wp_caught (f : ε → Option α) (p : Prog S ε α) :
    wp h (p.caught f) Q s ↔ wp h p (handled f Q) s := by
  induction p generalizing s with
  | ret a => rfl
  | raise e =>
    show wp h (match f e with | some a => .ret a | none => .raise e) Q s ↔
      match f e with | some a => Q (.ok a) s | none => Q (.error e) s
    cases f e with
    | some a => exact wp_ret a
    | none => exact wp_raise e
  | call o k ih => exact ih (h o s).1

@[simp] theorem wp_ite {c : Prop} [Decidable c] (p q : Prog S ε α) :
    wp h (if c then p else q) Q s ↔ (c → wp h p Q s) ∧ (¬ c → wp h q Q s) := by
  split <;> simp_all

/-- **Consequence rule.** A program that ensures `Q` ensures whatever `Q` implies. -/
theorem wp_mono {Q' : Except ε α → σ → Prop} {p : Prog S ε α}
    (hp : wp h p Q s) (hQ : ∀ r s', Q r s' → Q' r s') : wp h p Q' s :=
  hQ _ _ hp

theorem wp_and {Q' : Except ε α → σ → Prop} {p : Prog S ε α} :
    wp h p (fun r s' => Q r s' ∧ Q' r s') s ↔ wp h p Q s ∧ wp h p Q' s := Iff.rfl

theorem wp_exec {p : Prog S ε α} {r : Except ε α} {s' : σ}
    (hp : wp h p Q s) (hr : p.exec h s = (r, s')) : Q r s' := by
  unfold wp at hp
  rwa [hr] at hp

-- from here on a `wp` is taken apart by its rules, never by unfolding the run
attribute [irreducible] wp

end wp_rules

/-! ### What a program can call

    `note` collects what the program has learned from the answers so far,
    `can` bounds the answers an operation may give, and `G` must hold at each
    call. `Q` is what is known at a return. -/

section outline
variable (note : L → (o : S.Op) → S.Res o → L) (can : (o : S.Op) → S.Res o → Prop)
  (G : L → S.Op → Prop)

def Outline (Q : L → α → Prop) : L → Prog S ε α → Prop
  | l, .ret a => Q l a
  | _, .raise _ => True
  | l, .call o k => G l o ∧ ∀ r, can o r → Outline Q (note l o r) (k r)

variable {note can G} {Q : L → α → Prop} {l : L}

@[simp] theorem outline_ret (a : α) :
    Outline note can G Q l (.ret a : Prog S ε α) ↔ Q l a := Iff.rfl

@[simp] theorem outline_pure (a : α) :
    Outline note can G Q l (pure a : Prog S ε α) ↔ Q l a := Iff.rfl

@[simp] theorem outline_raise (e : ε) :
    Outline note can G Q l (.raise e : Prog S ε α) ↔ True := Iff.rfl

@[simp] theorem outline_call (o : S.Op) (k : S.Res o → Prog S ε α) :
    Outline note can G Q l (.call o k) ↔
      G l o ∧ ∀ r, can o r → Outline note can G Q (note l o r) (k r) := Iff.rfl

@[simp] theorem outline_bind (p : Prog S ε β) (f : β → Prog S ε α) :
    Outline note can G Q l (p >>= f) ↔
      Outline note can G (fun l' b => Outline note can G Q l' (f b)) l p := by
  rw [bind_def]
  induction p generalizing l with
  | ret b => rfl
  | raise e => rfl
  | call o k ih => simp only [bind, outline_call, ih]

@[simp] theorem outline_rethrow (g : ε → ε) (p : Prog S ε α) :
    Outline note can G Q l (p.rethrow g) ↔ Outline note can G Q l p := by
  induction p generalizing l with
  | ret a => rfl
  | raise e => simp only [rethrow, outline_raise]
  | call o k ih => simp only [rethrow, outline_call, ih]

@[simp] theorem outline_ite {c : Prop} [Decidable c] (p q : Prog S ε α) :
    Outline note can G Q l (if c then p else q) ↔
      (c → Outline note can G Q l p) ∧ (¬ c → Outline note can G Q l q) := by
  split <;> simp_all

theorem outline_mono {Q' : L → α → Prop} {p : Prog S ε α}
    (hp : Outline note can G Q l p) (hQ : ∀ l' a, Q l' a → Q' l' a) :
    Outline note can G Q' l p := by
  induction p generalizing l with
  | ret a => exact hQ _ _ hp
  | raise e => trivial
  | call o k ih => exact ⟨hp.1, fun r hr => ih r (hp.2 r hr)⟩

/-- **Outline rule.** A run alone: what is known and the state agree after every call
    that `G` admits, so they agree at the end. -/
theorem exec_outline {h : Handler S σ} {J : L → σ → Prop} {p : Prog S ε α} {s : σ}
    (hcan : ∀ o s, can o (h o s).1)
    (hJ : ∀ l o s, G l o → J l s → J (note l o (h o s).1) (h o s).2)
    (hp : Outline note can G Q l p) (hs : J l s) : ∃ l', J l' (p.exec h s).2 := by
  induction p generalizing l s with
  | ret a => exact ⟨l, hs⟩
  | raise e => exact ⟨l, hs⟩
  | call o k ih => exact ih _ (hp.2 _ (hcan o s)) (hJ l o s hp.1 hs)

end outline

/-! ### Operations a program is confined to -/

/-- Every call the program can make, whatever the answers, satisfies `A`. A
    structure, so that it is never unfolded into the program it speaks of. -/
structure Every (A : S.Op → Prop) (p : Prog S ε α) : Prop where
  outline : Outline (fun _ _ _ => ()) (fun _ _ => True) (fun _ => A) (fun _ _ => True) () p

section every
variable {A : S.Op → Prop}

@[simp] theorem every_ret (a : α) : Every A (.ret a : Prog S ε α) := ⟨trivial⟩

@[simp] theorem every_pure (a : α) : Every A (pure a : Prog S ε α) := ⟨trivial⟩

@[simp] theorem every_raise (e : ε) : Every A (.raise e : Prog S ε α) := ⟨trivial⟩

@[simp] theorem every_call (o : S.Op) (k : S.Res o → Prog S ε α) :
    Every A (.call o k) ↔ A o ∧ ∀ r, Every A (k r) := by
  constructor
  · intro h
    exact ⟨h.outline.1, fun r => ⟨h.outline.2 r trivial⟩⟩
  · intro h
    exact ⟨h.1, fun r _ => (h.2 r).outline⟩

theorem every_bind {p : Prog S ε β} {f : β → Prog S ε α}
    (hp : Every A p) (hf : ∀ b, Every A (f b)) : Every A (p >>= f) :=
  ⟨(outline_bind p f).mpr (outline_mono hp.outline (fun _ b _ => (hf b).outline))⟩

@[simp] theorem every_rethrow (g : ε → ε) (p : Prog S ε α) :
    Every A (p.rethrow g) ↔ Every A p := by
  constructor
  · intro h
    exact ⟨(outline_rethrow g p).mp h.outline⟩
  · intro h
    exact ⟨(outline_rethrow g p).mpr h.outline⟩

/-- The bound every program meets. -/
theorem every_any (p : Prog S ε α) : Every (fun _ => True) p := by
  induction p with
  | ret a => exact every_ret a
  | raise e => exact every_raise e
  | call o k ih => exact (every_call o k).mpr ⟨trivial, ih⟩

theorem every_mono {B : S.Op → Prop} {p : Prog S ε α} (hp : Every A p)
    (hAB : ∀ o, A o → B o) : Every B p := by
  induction p with
  | ret a => exact every_ret a
  | raise e => exact every_raise e
  | call o k ih =>
    rw [every_call] at hp ⊢
    exact ⟨hAB o hp.1, fun r => ih r (hp.2 r)⟩

/-- A program that is confined has an outline, when its operations are all admitted. -/
theorem Every.outlined {note : L → (o : S.Op) → S.Res o → L} {can : (o : S.Op) → S.Res o → Prop}
    {G : L → S.Op → Prop} {l : L} {p : Prog S ε α} (hp : Every A p) (hG : ∀ l o, A o → G l o) :
    Outline note can G (fun _ _ => True) l p := by
  induction p generalizing l with
  | ret a => trivial
  | raise e => trivial
  | call o k ih =>
    rw [every_call] at hp
    exact ⟨hG l o hp.1, fun r _ => ih r (hp.2 r)⟩

/-- An outline of a confined program may use the confinement. -/
theorem Every.outline_and {note : L → (o : S.Op) → S.Res o → L}
    {can : (o : S.Op) → S.Res o → Prop} {G : L → S.Op → Prop} {Q : L → α → Prop} {l : L}
    {p : Prog S ε α} (hp : Every A p) (hout : Outline note can G Q l p) :
    Outline note can (fun l o => G l o ∧ A o) Q l p := by
  induction p generalizing l with
  | ret a => exact hout
  | raise e => trivial
  | call o k ih =>
    rw [every_call] at hp
    exact ⟨⟨hout.1, hp.1⟩, fun r hr => ih r (hp.2 r) (hout.2 r hr)⟩

/-- **Confinement rule.** What each permitted operation preserves, a run of the
    whole program preserves, however it ends. -/
theorem exec_every {h : Handler S σ} {I : σ → Prop} {p : Prog S ε α} {s : σ}
    (hI : ∀ o s, A o → I s → I (h o s).2) (hp : Every A p) (hs : I s) :
    I (p.exec h s).2 := by
  induction p generalizing s with
  | ret a => exact hs
  | raise e => exact hs
  | call o k ih =>
    rw [every_call] at hp
    exact ih _ (hp.2 _) (hI o s hp.1 hs)

end every

/-! ### How a program ends

    `Course` is an outline that says how the program raises, too: `E` is what is
    known then. -/

section course
variable (note : L → (o : S.Op) → S.Res o → L) (can : (o : S.Op) → S.Res o → Prop)
  (G : L → S.Op → Prop)

def Course (Q : L → α → Prop) (E : L → ε → Prop) : L → Prog S ε α → Prop
  | l, .ret a => Q l a
  | l, .raise e => E l e
  | l, .call o k => G l o ∧ ∀ r, can o r → Course Q E (note l o r) (k r)

variable {note can G} {Q : L → α → Prop} {E : L → ε → Prop} {l : L}

theorem course_bind (p : Prog S ε β) (f : β → Prog S ε α) :
    Course note can G Q E l (p >>= f) ↔
      Course note can G (fun l' b => Course note can G Q E l' (f b)) E l p := by
  rw [bind_def]
  induction p generalizing l with
  | ret b => rfl
  | raise e => rfl
  | call o k ih => simp only [bind, Course, ih]

theorem course_rethrow (g : ε → ε) (p : Prog S ε α) :
    Course note can G Q E l (p.rethrow g) ↔
      Course note can G Q (fun l' e => E l' (g e)) l p := by
  induction p generalizing l with
  | ret a => rfl
  | raise e => rfl
  | call o k ih => simp only [rethrow, Course, ih]

/-- The returns alone. -/
theorem Course.outline {p : Prog S ε α} (hp : Course note can G Q E l p) :
    Outline note can G Q l p := by
  induction p generalizing l with
  | ret a => exact hp
  | raise e => trivial
  | call o k ih => exact ⟨hp.1, fun r hr => ih r (hp.2 r hr)⟩

/-- **Confined course.** What every permitted call keeps is known wherever a confined
    program ends. -/
theorem Every.course {A : S.Op → Prop} {I : L → Prop} {p : Prog S ε α} (hp : Every A p)
    (hG : ∀ l o, I l → A o → G l o) (hI : ∀ l o r, I l → A o → I (note l o r))
    (hQ : ∀ l a, I l → Q l a) (hE : ∀ l e, I l → E l e) (hl : I l) :
    Course note can G Q E l p := by
  induction p generalizing l with
  | ret a => exact hQ l a hl
  | raise e => exact hE l e hl
  | call o k ih =>
    rw [every_call] at hp
    exact ⟨hG l o hl hp.1, fun r _ => ih r (hp.2 r) (hI l o r hl hp.1)⟩

end course

/-! ### The operations of one run -/

/-- What the run performs, in order. -/
def performed (h : Handler S σ) : Prog S ε α → σ → List S.Op
  | .ret _, _ => []
  | .raise _, _ => []
  | .call o k, s => o :: performed h (k (h o s).1) (h o s).2

section performed
variable {h : Handler S σ} {A : S.Op → Prop} {o : S.Op} {s : σ}

theorem mem_performed_bind_iff {p : Prog S ε β} {f : β → Prog S ε α} :
    o ∈ performed h (p >>= f) s ↔
      o ∈ performed h p s ∨
        ∃ b, (p.exec h s).1 = .ok b ∧ o ∈ performed h (f b) (p.exec h s).2 := by
  rw [bind_def]
  induction p generalizing s with
  | ret b =>
    show o ∈ performed h (f b) s ↔
      o ∈ [] ∨ ∃ b', Except.ok b = Except.ok b' ∧ o ∈ performed h (f b') s
    constructor
    · intro ho
      exact .inr ⟨b, rfl, ho⟩
    · rintro (hnil | ⟨b', heq, ho⟩)
      · cases hnil
      · cases heq
        exact ho
  | raise e =>
    show o ∈ [] ↔ o ∈ [] ∨ ∃ b', Except.error e = Except.ok b' ∧ o ∈ performed h (f b') s
    simp
  | call o' k ih =>
    show o ∈ o' :: performed h ((k (h o' s).1).bind f) (h o' s).2 ↔
      o ∈ o' :: performed h (k (h o' s).1) (h o' s).2 ∨
        ∃ b, ((k (h o' s).1).exec h (h o' s).2).1 = .ok b ∧
          o ∈ performed h (f b) ((k (h o' s).1).exec h (h o' s).2).2
    rw [List.mem_cons, List.mem_cons, ih, or_assoc]

@[simp] theorem performed_rethrow (g : ε → ε) (p : Prog S ε α) :
    performed h (p.rethrow g) s = performed h p s := by
  induction p generalizing s with
  | ret a => rfl
  | raise e => rfl
  | call o' k ih => exact congrArg (o' :: ·) (ih _)

/-- A run of a confined program. -/
theorem Every.performed {p : Prog S ε α} (hp : Every A p) : ∀ o ∈ p.performed h s, A o := by
  induction p generalizing s with
  | ret a => exact fun o ho => by cases ho
  | raise e => exact fun o ho => by cases ho
  | call o' k ih =>
    rw [every_call] at hp
    intro o ho
    rcases List.mem_cons.mp ho with rfl | hrest
    · exact hp.1
    · exact ih _ (hp.2 _) o hrest

/-- After a confined program, what it has established bounds the rest. -/
theorem performed_bind_every {p : Prog S ε β} {f : β → Prog S ε α} (hp : Every A p)
    (hf : wp h p (fun r s' => ∀ b, r = .ok b → ∀ o ∈ performed h (f b) s', A o) s) :
    ∀ o ∈ performed h (p >>= f) s, A o := by
  intro o ho
  rcases mem_performed_bind_iff.mp ho with hfirst | ⟨b, hb, hrest⟩
  · exact hp.performed o hfirst
  · exact wp_exec hf (Prod.eta _).symm b hb o hrest

/-- The first program returns, and the rest performs it. -/
theorem mem_performed_bind {p : Prog S ε β} {f : β → Prog S ε α}
    (hf : wp h p (fun r s' => ∃ b, r = .ok b ∧ o ∈ performed h (f b) s') s) :
    o ∈ performed h (p >>= f) s := by
  obtain ⟨b, hb, hrest⟩ := wp_exec hf (Prod.eta _).symm
  exact mem_performed_bind_iff.mpr (.inr ⟨b, hb, hrest⟩)

end performed

/-! ### Two runs side by side

    Two programs run from two states of their own. `wp₂` asks that both end the
    same way, and that `Q` holds of how they end and of the two states left. -/

def wp₂ (h : Handler S σ) (p₁ p₂ : Prog S ε α) (Q : Except ε α → σ → σ → Prop) (s₁ s₂ : σ) :
    Prop :=
  (p₁.exec h s₁).1 = (p₂.exec h s₂).1 ∧ Q (p₁.exec h s₁).1 (p₁.exec h s₁).2 (p₂.exec h s₂).2

/-- What two runs must establish for the runs of `f₁` and `f₂` on their common value. -/
def after₂ (h : Handler S σ) (f₁ f₂ : β → Prog S ε α) (Q : Except ε α → σ → σ → Prop) :
    Except ε β → σ → σ → Prop
  | .ok b, s₁, s₂ => wp₂ h (f₁ b) (f₂ b) Q s₁ s₂
  | .error e, s₁, s₂ => Q (.error e) s₁ s₂

def rethrown₂ (g : ε → ε) (Q : Except ε α → σ → σ → Prop) : Except ε α → σ → σ → Prop
  | .ok a, s₁, s₂ => Q (.ok a) s₁ s₂
  | .error e, s₁, s₂ => Q (.error (g e)) s₁ s₂

section wp₂_rules
variable {h : Handler S σ} {Q : Except ε α → σ → σ → Prop} {s₁ s₂ : σ}

theorem exec_bind (p : Prog S ε β) (f : β → Prog S ε α) (s : σ) :
    (p >>= f).exec h s =
      match p.exec h s with
      | (.ok b, s') => (f b).exec h s'
      | (.error e, s') => (.error e, s') := by
  rw [bind_def]
  induction p generalizing s with
  | ret b => rfl
  | raise e => rfl
  | call o k ih => exact ih (h o s).1 (h o s).2

theorem exec_rethrow (g : ε → ε) (p : Prog S ε α) (s : σ) :
    (p.rethrow g).exec h s =
      match p.exec h s with
      | (.ok a, s') => (.ok a, s')
      | (.error e, s') => (.error (g e), s') := by
  induction p generalizing s with
  | ret a => rfl
  | raise e => rfl
  | call o k ih => exact ih (h o s).1 (h o s).2

theorem wp₂_pure {a : α} (hQ : Q (.ok a) s₁ s₂) : wp₂ h (pure a) (pure a) Q s₁ s₂ := ⟨rfl, hQ⟩

theorem wp₂_raise {e : ε} (hQ : Q (.error e) s₁ s₂) : wp₂ h (.raise e) (.raise e) Q s₁ s₂ :=
  ⟨rfl, hQ⟩

/-- An operation that both states answer the same way. -/
theorem wp₂_call {o : S.Op} {k₁ k₂ : S.Res o → Prog S ε α} (hsame : (h o s₁).1 = (h o s₂).1)
    (hk : wp₂ h (k₁ (h o s₁).1) (k₂ (h o s₁).1) Q (h o s₁).2 (h o s₂).2) :
    wp₂ h (.call o k₁) (.call o k₂) Q s₁ s₂ := by
  unfold wp₂ exec
  rw [← hsame]
  exact hk

theorem wp₂_bind {p₁ p₂ : Prog S ε β} {f₁ f₂ : β → Prog S ε α}
    (hp : wp₂ h p₁ p₂ (after₂ h f₁ f₂ Q) s₁ s₂) :
    wp₂ h (p₁ >>= f₁) (p₂ >>= f₂) Q s₁ s₂ := by
  unfold wp₂ at hp ⊢
  rw [exec_bind, exec_bind]
  obtain ⟨hsame, hQ⟩ := hp
  generalize p₁.exec h s₁ = x₁ at hsame hQ ⊢
  generalize p₂.exec h s₂ = x₂ at hsame hQ ⊢
  obtain ⟨r₁, t₁⟩ := x₁
  obtain ⟨r₂, t₂⟩ := x₂
  dsimp only at hsame hQ
  subst hsame
  cases r₁ with
  | error e => exact ⟨rfl, hQ⟩
  | ok b => exact hQ

theorem wp₂_rethrow {g : ε → ε} {p₁ p₂ : Prog S ε α} (hp : wp₂ h p₁ p₂ (rethrown₂ g Q) s₁ s₂) :
    wp₂ h (p₁.rethrow g) (p₂.rethrow g) Q s₁ s₂ := by
  unfold wp₂ at hp ⊢
  rw [exec_rethrow, exec_rethrow]
  obtain ⟨hsame, hQ⟩ := hp
  generalize p₁.exec h s₁ = x₁ at hsame hQ ⊢
  generalize p₂.exec h s₂ = x₂ at hsame hQ ⊢
  obtain ⟨r₁, t₁⟩ := x₁
  obtain ⟨r₂, t₂⟩ := x₂
  dsimp only at hsame hQ
  subst hsame
  cases r₁ with
  | error e => exact ⟨rfl, hQ⟩
  | ok a => exact ⟨rfl, hQ⟩

/-- **Consequence rule for two runs.** Two runs that end in `Q` end in whatever `Q` implies. -/
theorem wp₂_mono {Q' : Except ε α → σ → σ → Prop} {p₁ p₂ : Prog S ε α}
    (hp : wp₂ h p₁ p₂ Q s₁ s₂) (hQ : ∀ r t₁ t₂, Q r t₁ t₂ → Q' r t₁ t₂) :
    wp₂ h p₁ p₂ Q' s₁ s₂ := ⟨hp.1, hQ _ _ _ hp.2⟩

end wp₂_rules

end Prog

end Framework
