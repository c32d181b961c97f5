import CounselReady.Framework.ReadCommitted
import CounselReady.Specs.Sessions

/-! # Requests Side by Side

    The routes as READ COMMITTED transactions, any number of them at once. What
    a route has exchanged with the database when it returns is worked out here,
    for the routes that act on sessions (`refresh_trace`, `logout_trace`,
    `logout_everywhere_trace`, `deletion_trace`).
-/

namespace CounselReady

open Relational Framework Handler Prog

variable {Token : Type} {srv : Server Token} {env : Env}

/-! ### The system -/

/-- A request with its surroundings. -/
structure Arrival (Token : Type) where
  env : Env
  req : Request Token

abbrev Trace := List (Exchange (db_sig Row Patch Uuid Answer))

abbrev InFlight (Token : Type) := Flight Row Patch Uuid Answer Exc (Reply Token) (Arrival Token)

abbrev Traffic (Token : Type) := Shared Row Patch Uuid Answer Exc (Reply Token) Outside (Arrival Token)

def Arrival.handler (srv : Server Token) (a : Arrival Token) : Handler (Reply Token) :=
  respond srv a.env a.req

abbrev traffic (srv : Server Token) : Traffic Token → Move (Arrival Token) → Traffic Token → Prop :=
  Moves schema run_ext (Arrival.handler srv)

abbrev TrafficPast (Token : Type) := List (Move (Arrival Token) × Traffic Token)

/-- Nothing is stored, and nobody is being served. -/
def Traffic.start (ext : Outside) : Traffic Token := ⟨fun _ => [], ext, fun _ => none⟩

/-! ### Outlines that remember -/

/-- What the handler has exchanged when it returns satisfies `Q`. -/
abbrev Ends {α : Type} (Q : Trace → α → Prop) (l : Trace) (p : Handler α) : Prop :=
  Outline remember (Keyed schema) (fun _ _ => True) Q l p

section rules
variable {α β : Type} {Q : Trace → β → Prop} {l : Trace}

theorem ends_bind {p : Handler α} {f : α → Handler β} (h : Ends (fun l' a => Ends Q l' (f a)) l p) :
    Ends Q l (p >>= f) := (outline_bind p f).mpr h

theorem ends_some_or_bind {x : Option α} {e : Exc} {f : α → Handler β}
    (hf : ∀ a, x = some a → Ends Q l (f a)) : Ends Q l (some_or x e >>= f) := by
  cases x with
  | none => trivial
  | some a => exact hf a rfl

theorem ends_require_bind {c : Bool} {e : Exc} {f : Unit → Handler β}
    (hf : c = true → Ends Q l (f ())) : Ends Q l (require c e >>= f) := by
  cases c with
  | false => trivial
  | true => exact hf rfl

theorem ends_select_bind {t : Table} {p : Row t → Bool} {f : List (Row t) → Handler β}
    (hf : ∀ rows : List (Row t), (∀ r' ∈ rows, ∃ r, schema.pk t r = schema.pk t r' ∧ p r = true) →
      Ends Q (⟨.select t p, rows⟩ :: l) (f rows)) : Ends Q l (select t p >>= f) :=
  ends_bind ⟨trivial, fun rows hrows => hf rows hrows⟩

theorem ends_select_one_bind {t : Table} {p : Row t → Bool} {f : Option (Row t) → Handler β}
    (hnone : Ends Q (⟨.select t p, []⟩ :: l) (f none))
    (hsome : ∀ r' r, schema.pk t r = schema.pk t r' → p r = true →
      Ends Q (⟨.select t p, [r']⟩ :: l) (f (some r'))) :
    Ends Q l (select_one t p >>= f) := by
  refine ends_bind (ends_select_bind fun rows hrows => ?_)
  match rows with
  | [] => exact hnone
  | [r'] =>
    obtain ⟨r, hpk, hr⟩ := hrows r' List.mem_cons_self
    exact hsome r' r hpk hr
  | _ :: _ :: _ => trivial

theorem ends_execute {w : Write Row Patch Uuid} {Q : Trace → Unit → Prop}
    (h : Q (⟨.write w, .ok ()⟩ :: l) ()) : Ends Q l (execute .database w) := by
  refine ⟨trivial, fun r _ => ?_⟩
  cases r with
  | error v => trivial
  | ok u => exact h

theorem ends_execute_bind {w : Write Row Patch Uuid} {f : Unit → Handler β}
    (hf : Ends Q (⟨.write w, .ok ()⟩ :: l) (f ())) : Ends Q l (execute .database w >>= f) :=
  ends_bind (ends_execute hf)

theorem ends_mono {p : Handler β} {Q' : Trace → β → Prop} (hp : Ends Q l p)
    (hQ : ∀ l' b, Q l' b → Q' l' b) : Ends Q' l p := outline_mono hp hQ

/-- A program that calls nothing ends the way it ends alone. -/
theorem ends_silent {p : Handler β} {s : Session} (hp : Confined (fun _ => False) p)
    (h : wps p (fun r _ => ∀ b, r = .ok b → Q l b) s) : Ends Q l p := by
  cases p with
  | ret b => exact (wp_ret b).mp h b rfl
  | raise e => trivial
  | call o k => exact ((every_call o k).mp hp).1.elim

/-- What a confined program adds to the trace. -/
theorem ends_confined {A : Op Row Patch Uuid Ext → Prop} {p : Handler β} (hp : Confined A p) :
    Ends (fun l' _ => ∃ tail, l' = tail ++ l ∧ ∀ x ∈ tail, A x.1) l p := by
  induction p generalizing l with
  | ret b => exact ⟨[], rfl, fun _ hx => by cases hx⟩
  | raise e => trivial
  | call o k ih =>
    obtain ⟨ho, hk⟩ := (every_call o k).mp hp
    refine ⟨trivial, fun r _ => outline_mono (ih r (hk r)) ?_⟩
    rintro l' b ⟨tail, rfl, htail⟩
    refine ⟨tail ++ [⟨o, r⟩], by rw [List.append_assoc]; rfl, fun x hx => ?_⟩
    rcases List.mem_append.mp hx with hold | hnew
    · exact htail x hold
    · obtain rfl := List.mem_singleton.mp hnew
      exact ho

end rules

/-! ### The gate -/

/-- The credentials decode to these claims. -/
def Names (srv : Server Token) (a : Arrival Token) (claims : AccessTokenClaims) : Prop :=
  ∃ token, a.req.credentials = some token ∧ decode_access_token srv token a.env.now = some claims

def by_id (session_id : Uuid) : UserSession → Bool := fun s => s.id == session_id

/-- What the gate has read: the session of the token, live, and its account. -/
structure Gated (srv : Server Token) (a : Arrival Token) (claims : AccessTokenClaims)
    (us : UserSession) (account : UserAccount) (l : Trace) : Prop where
  names : Names srv a claims
  trace : l = [⟨.select .user_account (fun a : UserAccount => a.id == claims.user_id), [account]⟩,
    ⟨.select .user_session (by_id claims.session_id), [us]⟩]
  session : us.id = claims.session_id
  live : us.is_active a.env.now = true
  account : account.id = claims.user_id

theorem ends_authenticated_bind {β : Type} {a : Arrival Token} {Q : Trace → β → Prop}
    {f : Authenticated → Handler β}
    (hf : ∀ claims us account l, Gated srv a claims us account l →
      Ends Q l (f ⟨account, claims.session_id⟩)) :
    Ends Q [] (authenticated srv a.env a.req.credentials >>= f) := by
  refine ends_bind ?_
  refine ends_some_or_bind fun token htoken => ?_
  refine ends_some_or_bind fun claims hclaims => ?_
  refine ends_bind (ends_select_one_bind ?_ fun us r hpk hr => ?_)
  · exact ends_require_bind fun h => by cases h
  refine ends_require_bind fun hlive => ?_
  refine ends_select_one_bind ?_ fun account r' hpk' hr' => ?_
  · exact ends_some_or_bind fun _ h => by cases h
  refine ends_some_or_bind fun account' haccount => ?_
  cases haccount
  refine ends_require_bind fun hactive => ?_
  have hsession : UserSession.id us = claims.session_id := Eq.trans hpk.symm (beq_iff_eq.mp hr)
  have huser : account.id = claims.user_id := Eq.trans hpk'.symm (beq_iff_eq.mp hr')
  refine hf claims us account _ ⟨⟨token, htoken, hclaims⟩, rfl, hsession, ?_, huser⟩
  simpa using hlive

theorem ends_current_user_bind {β : Type} {a : Arrival Token} {Q : Trace → β → Prop}
    {f : UserAccount → Handler β}
    (hf : ∀ claims us account l, Gated srv a claims us account l → Ends Q l (f account)) :
    Ends Q [] (current_user srv a.env a.req.credentials >>= f) :=
  ends_bind (ends_authenticated_bind fun claims us account l hgated => hf claims us account l hgated)

/-- The gate reads sessions and accounts. -/
theorem Gated.reads {a : Arrival Token} {claims : AccessTokenClaims} {us : UserSession}
    {account : UserAccount} {l : Trace} (h : Gated srv a claims us account l) :
    ∀ x ∈ l, ∃ t p, x.1 = .select t p ∧ (t = .user_account ∨ t = .user_session) := by
  intro x hx
  rw [h.trace] at hx
  rcases List.mem_cons.mp hx with rfl | hx
  · exact ⟨_, _, rfl, .inl rfl⟩
  · obtain rfl := List.mem_singleton.mp hx
    exact ⟨_, _, rfl, .inr rfl⟩

/-! ### A request served alone -/

section alone
variable {may : TrafficPast Token → Traffic Token → Move (Arrival Token) → Prop}
  {s₀ s : Traffic Token} {past : TrafficPast Token}

/-- **Alone.** A request that returns when it is served alone does so in a run of the
    traffic, and commits what it leaves. -/
theorem served_alone {n : Nat} {a : Arrival Token} {reply : Reply Token} {t : Session}
    (hr : Run (traffic srv) may s₀ past s) (hbegin : may past s (.begin n a))
    (hcall : ∀ past s, may past s (.call n))
    (hcommit : ∀ past seen, Run (traffic srv) may s₀ past
        ⟨s.db, t.ext, s.put n (some ⟨a, .ret reply, seen⟩)⟩ → (∀ e ∈ seen, e.rows = s.db) →
      may past ⟨s.db, t.ext, s.put n (some ⟨a, .ret reply, seen⟩)⟩ (.commit n))
    (hfree : s.running n = none)
    (hexec : (a.handler srv).exec (perform schema run_ext) ⟨s.db, s.ext, []⟩ = (.ok reply, t)) :
    ∃ past' seen, Run (traffic srv) may s₀ past' ⟨t.db, t.ext, s.running⟩ ∧
      (committed past' = ⟨a, .ret reply, seen⟩ :: committed past ∧
        begun past' = a :: begun past) ∧ ∀ e ∈ seen, e.rows = s.db := by
  have hbegun := hr.next (.begin n a) hbegin (.begin a hfree)
  obtain ⟨past', seen, hr', ⟨hcommitted, hbegun'⟩, hredo, hseen⟩ :=
    run_alone hbegun hcall (Shared.put_self s n _) rfl hexec
  have hrows : ∀ e ∈ seen, e.rows = s.db := fun e he => (hseen e he).resolve_left List.not_mem_nil
  rw [put_put] at hr'
  have hdone := hr'.next (.commit n) (hcommit past' seen hr' hrows)
    (.commit (Shared.put_self s n _) rfl hredo)
  have hidle : s.put n none = s.running := by
    funext m
    by_cases hm : m = n
    · rw [hm, Shared.put_self, hfree]
    · exact Shared.put_ne s _ hm
  rw [put_put, hidle] at hdone
  refine ⟨_, seen, hdone, ⟨?_, hbegun'⟩, hrows⟩
  have hlanded : landed ((.commit n, ⟨s.db, t.ext, s.put n (some ⟨a, .ret reply, seen⟩)⟩) :
      Move (Arrival Token) × Traffic Token) = some ⟨a, .ret reply, seen⟩ := Shared.put_self s n _
  rw [committed, List.filterMap_cons_some hlanded]
  exact congrArg _ hcommitted

/-- A request served alone, when it succeeds. -/
def Arrival.alone (srv : Server Token) (a : Arrival Token) (w : Committed) : Option Committed :=
  match (a.handler srv).exec (perform schema run_ext) ⟨w.db, w.ext, []⟩ with
  | (.ok _, t) => some ⟨t.db, t.ext⟩
  | (.error _, _) => none

/-- Requests one after another, latest first, when they all succeed. -/
def one_by_one (srv : Server Token) (ext : Outside) : List (Arrival Token) → Option Committed
  | [] => some ⟨fun _ => [], ext⟩
  | a :: earlier => (one_by_one srv ext earlier).bind (a.alone srv)

/-- **One by one.** Requests that are served one after another are a run, if each of them may
    begin after those before it, and commits are allowed that find nobody else in flight. -/
theorem begun_one_by_one {ext : Outside} {as : List (Arrival Token)}
    (hbegin : ∀ past s n a earlier, a :: earlier <:+ as → begun past = earlier →
      may past s (.begin n a))
    (hcall : ∀ past s n, may past s (.call n))
    (hcommit : ∀ past s f reply, Run (traffic srv) may (Traffic.start ext) past s →
      s.running 0 = some f → (∀ n, n ≠ 0 → s.running n = none) → f.rest = .ret reply →
      (∀ e ∈ f.seen, e.rows = s.db) → may past s (.commit 0))
    {w : Committed} (h : one_by_one srv ext as = some w) :
    ∃ past, Run (traffic srv) may (Traffic.start ext) past ⟨w.db, w.ext, fun _ => none⟩ ∧
      begun past = as := by
  induction as generalizing w with
  | nil =>
    obtain rfl := Option.some.inj h
    exact ⟨[], .start, rfl⟩
  | cons a earlier ih =>
    obtain ⟨w₁, hearlier, halone⟩ := Option.bind_eq_some_iff.mp h
    obtain ⟨past, hr, hbegun⟩ := ih (fun past s n b rest hrest =>
      hbegin past s n b rest (hrest.trans (List.suffix_cons a earlier))) hearlier
    unfold Arrival.alone at halone
    cases hexec : (a.handler srv).exec (perform schema run_ext) ⟨w₁.db, w₁.ext, []⟩ with
    | mk r t =>
      rw [hexec] at halone
      cases r with
      | error e => cases halone
      | ok reply =>
        obtain rfl := Option.some.inj halone
        obtain ⟨past', _, hr', ⟨_, hbegun'⟩, _⟩ := served_alone (n := 0) hr
          (hbegin _ _ _ _ earlier (List.suffix_refl _) hbegun)
          (fun past s => hcall past s 0)
          (fun past seen hrun hrows => hcommit past _ ⟨a, .ret reply, seen⟩ reply hrun rfl
            (fun n hn => Shared.put_ne _ _ hn) rfl hrows) rfl hexec
        exact ⟨past', hr', by rw [hbegun', hbegun]⟩

/-- The same, when a request may begin that goes with all the requests before it. -/
theorem pairwise_one_by_one {ext : Outside} {R : Arrival Token → Arrival Token → Prop}
    {as : List (Arrival Token)} (hR : as.Pairwise fun a b => R b a) {w : Committed}
    (h : one_by_one srv ext as = some w) :
    ∃ past, Run (traffic srv)
      (fun past _ move => ∀ n a, move = .begin n a → ∀ b ∈ begun past, R b a)
      (Traffic.start ext) past ⟨w.db, w.ext, fun _ => none⟩ ∧ begun past = as := by
  let may : TrafficPast Token → Traffic Token → Move (Arrival Token) → Prop :=
    fun past _ move => ∀ n a, move = .begin n a → ∀ b ∈ begun past, R b a
  have hbegin : ∀ (past : TrafficPast Token) (s : Traffic Token) n a earlier, a :: earlier <:+ as →
      begun past = earlier → may past s (.begin n a) := by
    intro past s n a earlier hsuffix hbegun n' a' hmove b hb
    obtain ⟨_, rfl⟩ := Move.begin.inj hmove
    rw [hbegun] at hb
    exact (List.pairwise_cons.mp (hR.sublist hsuffix.sublist)).1 b hb
  exact begun_one_by_one hbegin (fun _ _ _ => nofun) (fun _ _ _ _ _ _ _ _ _ => nofun) h

/-- The same, when requests may begin at any time. -/
theorem run_one_by_one {ext : Outside} (hbegin : ∀ past s n a, may past s (.begin n a))
    (hcall : ∀ past s n, may past s (.call n))
    (hcommit : ∀ past s f reply, Run (traffic srv) may (Traffic.start ext) past s →
      s.running 0 = some f → (∀ n, n ≠ 0 → s.running n = none) → f.rest = .ret reply →
      (∀ e ∈ f.seen, e.rows = s.db) → may past s (.commit 0))
    {as : List (Arrival Token)} {w : Committed} (h : one_by_one srv ext as = some w) :
    ∃ past, Run (traffic srv) may (Traffic.start ext) past ⟨w.db, w.ext, fun _ => none⟩ := by
  obtain ⟨past, hr, _⟩ :=
    begun_one_by_one (fun past s n a _ _ _ => hbegin past s n a) hcall hcommit h
  exact ⟨past, hr⟩

end alone

end CounselReady
