import CounselReady.Rules

/-! # Whom a Route Signs For

    An access token names a session and an account. No route compares the two
    when it accepts one; every route that signs one takes both from the same row
    of `user_session`, which it has just inserted or read (`respond_mints`).
-/

namespace CounselReady

open Relational Framework Handler Prog

variable {Token : Type} {srv : Server Token} {env : Env}

/-! ### Owners a request has met -/

/-- Sessions with their owners. -/
abbrev Owners := List (Uuid × Uuid)

def owner_of (s : UserSession) : Uuid × Uuid := (s.id, s.user_id)

/-- The owners known after a call: those of the sessions it read, or inserted. -/
def learn (l : Owners) : (o : Op Row Patch Uuid Ext) → Op.Res Answer o → Owners
  | .select .user_session _, (rows : List UserSession) => rows.map owner_of ++ l
  | .write (.insert .user_session (s : UserSession)), .ok _ => owner_of s :: l
  | _, _ => l

/-- A token for a session is signed for an owner that is known. -/
def signs_for_owner (l : Owners) : Op Row Patch Uuid Ext → Prop
  | .ext (.sign p) => ∀ i, p.sid = some i → (i, p.sub) ∈ l
  | _ => True

/-- No token for a session is signed. -/
def signs_no_session : Op Row Patch Uuid Ext → Prop
  | .ext (.sign p) => p.sid = none
  | _ => True

abbrev MintsThen {α : Type} (Q : Owners → α → Prop) (l : Owners) (p : Handler α) : Prop :=
  Outline learn Selected signs_for_owner Q l p

/-- Whatever it is answered, the handler signs for owners only. -/
abbrev Mints {α : Type} (l : Owners) (p : Handler α) : Prop := MintsThen (fun _ _ => True) l p

/-! ### Rules -/

section rules
variable {α β : Type} {l : Owners}

theorem mints_of_confined {p : Handler α} (hp : Confined signs_no_session p) : Mints l p := by
  refine hp.outlined ?_
  intro l o ho
  cases o with
  | ext e =>
    cases e with
    | sign p =>
      intro i hi
      rw [show p.sid = none from ho] at hi
      cases hi
    | put key data => trivial
    | get key => trivial
    | remove key => trivial
  | select t p => trivial
  | snapshot => trivial
  | write w => trivial

theorem mints_bind {p : Handler α} {f : α → Handler β} (hp : Confined signs_no_session p)
    (hf : ∀ l' a, Mints l' (f a)) : Mints l (p >>= f) :=
  (outline_bind p f).mpr (outline_mono (mints_of_confined hp) fun l' a _ => hf l' a)

theorem mints_select_one_bind {t : Table} {p : Row t → Bool} {f : Option (Row t) → Handler β}
    (hnone : ∀ l', Mints l' (f none))
    (hsome : ∀ r, p r = true → Mints (learn l (.select t p) [r]) (f (some r))) :
    Mints l (select_one t p >>= f) := by
  refine (outline_bind _ _).mpr ((outline_bind _ _).mpr ⟨trivial, fun rows hrows => ?_⟩)
  match rows with
  | [] => exact hnone _
  | [r] => exact hsome r (hrows r List.mem_cons_self)
  | _ :: _ :: _ => trivial

theorem mints_some_or_bind {x : Option α} {e : Exc} {f : α → Handler β}
    (hf : ∀ a, x = some a → Mints l (f a)) : Mints l (some_or x e >>= f) := by
  cases x with
  | none => trivial
  | some a => exact hf a rfl

theorem mints_require_bind {c : Bool} {e : Exc} {f : Unit → Handler β}
    (hf : c = true → Mints l (f ())) : Mints l (require c e >>= f) := by
  cases c with
  | false => trivial
  | true => exact hf rfl

end rules

/-! ### Steps that sign nothing -/

theorem signs_nothing {A : Op Row Patch Uuid Ext → Prop} {α : Type} {p : Handler α}
    (hp : Confined A p) (hA : ∀ p, A (.ext (.sign p)) → p.sid = none) :
    Confined signs_no_session p := by
  refine every_mono hp ?_
  intro o ho
  cases o with
  | ext e =>
    cases e with
    | sign p => exact hA p ho
    | put key data => trivial
    | get key => trivial
    | remove key => trivial
  | select t p => trivial
  | snapshot => trivial
  | write w => trivial

/-- A route that issues no tokens signs none. -/
theorem unsigned_of_permits {route : Route Token} {α : Type} {p : Handler α}
    (hp : Confined (permits srv env route) p)
    (hroute : (route.signs_in || route.refreshes) = false) : Confined signs_no_session p := by
  refine signs_nothing hp ?_
  rintro p ⟨hsign, _⟩
  rw [hroute] at hsign
  cases hsign

theorem unsigned_rehash {account : UserAccount} {password : String} :
    Confined signs_no_session (rehash srv env account password) := by
  unfold rehash
  split
  · refine confined_bind ?_ fun _ => confined_update trivial
    unfold hash_password
    split <;> simp
  · simp

theorem unsigned_is_mfa_active {user_id : Uuid} :
    Confined signs_no_session (is_mfa_active user_id) :=
  confined_bind (confined_select_one trivial) (fun _ => every_pure _)

/-! ### Steps that sign -/

variable {l : Owners}

/-- The session that is signed for has just been inserted for the account. -/
theorem mints_complete_login {email : String} {account : UserAccount} :
    Mints l (complete_login srv env email account) := by
  refine (outline_bind _ _).mpr ((outline_bind _ _).mpr ⟨trivial, fun r _ => ?_⟩)
  cases r with
  | error v => trivial
  | ok u =>
    refine (outline_bind _ _).mpr ((outline_bind _ _).mpr ⟨?_, fun _ _ => ?_⟩)
    · intro i hi
      obtain rfl : env.uuid 0 = i := Option.some.inj hi
      exact List.mem_cons_self
    · exact mints_bind (confined_insert trivial) fun _ _ => trivial

theorem mints_accept_password {email password : String} {account : UserAccount} :
    Mints l (accept_password srv env email password account) := by
  refine mints_bind unsigned_rehash fun l _ => ?_
  refine mints_bind unsigned_is_mfa_active fun l active => ?_
  cases active with
  | true => exact mints_bind (confined_sign rfl) fun _ _ => trivial
  | false => exact (outline_bind _ _).mpr (outline_mono mints_complete_login fun _ _ _ => trivial)

theorem mints_authenticate {email password : String} :
    Mints l (authenticate srv env email password) := by
  refine mints_bind (confined_bind (every_select trivial) fun _ => every_pure _) fun l _ => ?_
  refine mints_require_bind fun _ => ?_
  refine mints_bind (confined_select_one trivial) fun l account => ?_
  have hrefuse : ∀ account : Option UserAccount,
      Mints l (refuse_login env (normalize_email srv email) account : Handler (SignIn Token)) :=
    fun _ => mints_bind (confined_insert trivial) fun _ _ => trivial
  cases account with
  | none => exact hrefuse none
  | some account =>
    refine (outline_ite _ _).mpr ⟨fun _ => mints_accept_password, fun _ => hrefuse (some account)⟩

/-- The session that is signed for has been read, and the account found by its owner. -/
theorem mints_refresh_session {refresh_token : String} :
    Mints l (refresh_session srv env refresh_token) := by
  refine mints_bind (confined_select_one trivial) fun l replayed => ?_
  cases replayed with
  | some replayed =>
    have hrevoke : Confined (permits srv env .logout)
        (revoke_session_by_id env replayed.session_id) := confined_revoke_session_by_id rfl
    exact mints_bind (unsigned_of_permits hrevoke rfl) fun _ _ => trivial
  | none =>
    refine mints_select_one_bind (fun _ => mints_some_or_bind fun _ h => by cases h) ?_
    intro us _
    refine mints_some_or_bind fun us' hus => ?_
    cases hus
    refine mints_require_bind fun _ => ?_
    refine mints_select_one_bind (fun _ => mints_some_or_bind fun _ h => by cases h) ?_
    intro account howner
    refine mints_some_or_bind fun account' haccount => ?_
    cases haccount
    refine mints_require_bind fun _ => ?_
    have howner : account.id = us.user_id := beq_iff_eq.mp howner
    refine (outline_bind _ _).mpr ⟨trivial, fun r _ => ?_⟩
    cases r with
    | error v => trivial
    | ok u =>
      refine (outline_bind _ _).mpr ⟨trivial, fun r _ => ?_⟩
      cases r with
      | error v => trivial
      | ok u =>
        refine (outline_bind _ _).mpr ((outline_bind _ _).mpr ⟨?_, fun _ _ => trivial⟩)
        intro i hi
        obtain rfl : us.id = i := Option.some.inj hi
        show (us.id, account.id) ∈ owner_of us :: l
        rw [howner]
        exact List.mem_cons_self

/-- **Minting.** Every route signs for the owner of the session, if it signs for one. -/
theorem respond_mints (srv : Server Token) (env : Env) (req : Request Token) (l : Owners) :
    Mints l (respond srv env req) := by
  by_cases hsigns : (req.route.signs_in || req.route.refreshes) = false
  · exact mints_of_confined (unsigned_of_permits (respond_confined srv env req) hsigns)
  obtain ⟨credentials, route⟩ := req
  cases route
  case login email password =>
    refine mints_some_or_bind fun email _ => ?_
    refine mints_require_bind fun _ => ?_
    refine (outline_bind _ _).mpr ((outline_rethrow _ _).mpr ?_)
    exact outline_mono mints_authenticate fun _ _ _ => trivial
  case refresh refresh_token =>
    refine mints_require_bind fun _ => ?_
    refine (outline_bind _ _).mpr ((outline_rethrow _ _).mpr ?_)
    exact outline_mono mints_refresh_session fun _ _ _ => trivial
  case mfa_verify challenge_token code =>
    refine mints_require_bind fun _ => ?_
    refine mints_require_bind fun _ => ?_
    refine mints_some_or_bind fun user_id _ => ?_
    refine mints_bind (confined_select_one trivial) fun l found => ?_
    refine mints_some_or_bind fun account _ => ?_
    refine mints_require_bind fun _ => ?_
    -- the check of a code signs nothing, as on a route that signs nothing at all
    have hcode : Confined (permits srv env (.mfa_disable "" ""))
        (verify_code_for_login srv env account code) := confined_verify_code_for_login rfl
    refine mints_bind ((every_rethrow _ _).mpr (unsigned_of_permits hcode rfl)) fun l _ => ?_
    exact (outline_bind _ _).mpr (outline_mono mints_complete_login fun _ _ _ => trivial)
  case passkey_login_complete credential =>
    -- taking a challenge signs nothing either
    have hchallenge : Confined (permits srv env (.register_complete credential none))
        (consume_challenge srv env credential) := confined_consume_challenge rfl
    refine mints_bind (unsigned_of_permits hchallenge rfl) fun l challenge => ?_
    refine mints_some_or_bind fun credential_id _ => ?_
    refine mints_bind (confined_select_one trivial) fun l found => ?_
    refine mints_some_or_bind fun passkey _ => ?_
    refine mints_bind (confined_select_one trivial) fun l found => ?_
    refine mints_some_or_bind fun account _ => ?_
    refine mints_require_bind fun _ => ?_
    refine mints_bind confined_verified fun l new_count => ?_
    refine mints_bind (confined_update trivial) fun l _ => ?_
    exact (outline_bind _ _).mpr (outline_mono mints_complete_login fun _ _ _ => trivial)
  all_goals exact absurd rfl hsigns

end CounselReady
