import CounselReady.Framework.Run
import CounselReady.Frontend.Api
import CounselReady.Guarantees.ErasedBytes
import CounselReady.Specs.Admission
import CounselReady.Specs.Sessions

/-! # Silent Refresh

    A call that is answered 401 presents the refresh token that it finds, and sets
    the tokens that it gets for it. Nothing keeps a second call, answered 401
    meanwhile, from presenting the same token: the server takes that for a replay,
    and the call throws away the tokens of the first.

    * `Assumed`: what the server and the others are taken to do.
    * `OneRefresh`: what the page must do for the refresh to be silent.
    * `Coherent`: who has the tokens of the session, the variables or one call.
-/

namespace CounselReady

open Relational Framework Handler Prog

variable {Token : Type} {srv : Server Token}

/-! ### The digest of a session -/

/-- The session, where it is on record, has the digest, and it has not been used. -/
structure DigestHeld (session_id : Uuid) (digest : String) (db : Database) : Prop where
  consistent : schema.Consistent db
  current : ∀ r ∈ db .user_session, UserSession.id r = session_id → r.refresh_digest = digest
  unused : ∀ u ∈ db .used_refresh_token, UsedRefreshToken.digest u ≠ digest

section digest
variable {session_id : Uuid} {digest : String} {w : Committed} {env : Env}

theorem serve_consistent (hc : schema.Consistent w.db) (req : Request Token) :
    schema.Consistent (serve srv env req w).2.db := by
  have hstep : schema.Consistent ((Step.request env req).run srv w).db :=
    Step.run_db_invariant (fun _ _ _ hchk hdb => Schema.consistent_admitted schema_regular hdb hchk)
      hc
  exact hstep

/-- A request that is no refresh leaves the digest. -/
theorem DigestHeld.served (h : DigestHeld session_id digest w.db) {req : Request Token}
    (hroute : req.route.refreshes = false) (hid : env.uuid 0 ≠ session_id) :
    DigestHeld session_id digest (serve srv env req w).2.db := by
  let J : Database → Prop := DigestHeld session_id digest
  have hJ : J ((Step.request env req).run srv w).db := by
    refine Step.run_db_invariant (J := J) ?_ h
    intro wr db hp hchk hdb
    have hpermitted : permits srv env req.route (.write wr) := hp
    refine ⟨Schema.consistent_admitted schema_regular hdb.consistent hchk, ?_, ?_⟩
    · intro r hr hrid
      rcases session_from hpermitted hr with ⟨r₀, hr₀, hcarried, hsame | ⟨hrefreshes, _⟩⟩ |
        ⟨_, _, hnew, _⟩
      · exact hsame.trans (hdb.current r₀ hr₀ (hcarried.id.symm.trans hrid))
      · rw [hroute] at hrefreshes
        cases hrefreshes
      · exact absurd (hnew.symm.trans hrid) hid
    · intro u hu
      rcases Schema.mem_effect_resolve (rigid (by decide)) hu with hold | rfl | ⟨_, patch, _⟩
      · exact hdb.unused u hold
      · have hrefreshes : req.route.refreshes = true := hpermitted.2
        rw [hroute] at hrefreshes
        cases hrefreshes
      · exact patch.elim
  exact hJ

/-- The rows after a rotation. -/
theorem Rotation.sessions {refresh_token : String} {us : UserSession} {db db' : Database}
    (h : Rotation srv env refresh_token db us db') {r' : UserSession}
    (hr' : r' ∈ db' .user_session) :
    (∃ r ∈ db .user_session, r.id ≠ us.id ∧ r' = r) ∨
      (r'.id = us.id ∧ r'.refresh_digest = hash_refresh_token srv env.refresh_token) := by
  rw [h.result] at hr'
  obtain ⟨r, hr, rfl⟩ := Schema.mem_effect_update.mp hr'
  rw [Schema.effect_insert_ne _ _ (by decide)] at hr
  by_cases hid : UserSession.id r = us.id
  · rw [Schema.patched_of_eq hid]
    exact .inr ⟨hid, rfl⟩
  · rw [Schema.patched_of_ne hid]
    exact .inl ⟨r, hr, hid, rfl⟩

theorem Rotation.used {refresh_token : String} {us : UserSession} {db db' : Database}
    (h : Rotation srv env refresh_token db us db') {u : UsedRefreshToken}
    (hu : u ∈ db' .used_refresh_token) :
    u ∈ db .used_refresh_token ∨ u.digest = hash_refresh_token srv refresh_token := by
  rw [h.result, Schema.effect_update_ne _ _ _ (by decide)] at hu
  rcases Schema.mem_effect_insert.mp hu with hold | rfl
  · exact .inl hold
  · exact .inr rfl

/-- Nor does the refresh of another token. -/
theorem DigestHeld.refreshed_other (h : DigestHeld session_id digest w.db)
    {credentials : Option Token} {refresh_token : String}
    (hother : hash_refresh_token srv refresh_token ≠ digest) :
    DigestHeld session_id digest (serve srv env ⟨credentials, .refresh refresh_token⟩ w).2.db := by
  refine ⟨serve_consistent h.consistent _, ?_, ?_⟩
  all_goals
    rcases serve_refresh srv env credentials refresh_token w with ⟨us, hrot⟩ | ⟨_, hsame⟩
    case inr =>
      rw [hsame]
      first
        | exact h.current
        | exact h.unused
  · intro r' hr' hid
    rcases hrot.sessions hr' with ⟨r, hr, _, rfl⟩ | ⟨hus, _⟩
    · exact h.current r' hr hid
    · -- the session has the digest, and the token presented has another one
      exact absurd (hrot.digest.symm.trans (h.current us hrot.mem (hus.symm.trans hid))) hother
  · intro u hu
    rcases hrot.used hu with hold | hnew
    · exact h.unused u hold
    · rw [hnew]
      exact hother

/-- The session can be refreshed now: it is live, its account is active, and nothing fails. -/
structure Refreshable (session_id : Uuid) (env : Env) (db : Database) : Prop where
  live : ∃ r ∈ db .user_session, UserSession.id r = session_id ∧ r.is_active env.now = true ∧
    ∃ account ∈ db .user_account, UserAccount.id account = r.user_id ∧ account.active = true
  up : env.faults = [] ∧ env.commits = true

/-- What a request draws is new: an id, and a refresh token of a plausible length that is none
    of those presented, with a digest of its own. -/
structure DrawsNew (srv : Server Token) (session_id : Uuid) (presented : List String)
    (db : Database) (env : Env) : Prop where
  id : env.uuid 0 ≠ session_id
  used_id : ∀ u ∈ db .used_refresh_token, UsedRefreshToken.id u ≠ env.uuid 0
  digest : ∀ r ∈ db .user_session,
    UserSession.refresh_digest r ≠ hash_refresh_token srv env.refresh_token
  used_digest : ∀ u ∈ db .used_refresh_token,
    UsedRefreshToken.digest u ≠ hash_refresh_token srv env.refresh_token
  token : env.refresh_token ∉ presented
  length : env.refresh_token ≠ "" ∧ env.refresh_token.length ≤ 512

instance (session_id : Uuid) (env : Env) (db : Database) :
    Decidable (Refreshable session_id env db) :=
  decidable_of_iff ((∃ r ∈ db .user_session, UserSession.id r = session_id ∧
      r.is_active env.now = true ∧ ∃ account ∈ db .user_account,
        UserAccount.id account = r.user_id ∧ account.active = true) ∧
      env.faults = [] ∧ env.commits = true)
    ⟨fun h => ⟨h.1, h.2⟩, fun h => ⟨h.live, h.up⟩⟩

instance (session_id : Uuid) (presented : List String) (db : Database) (env : Env) :
    Decidable (DrawsNew srv session_id presented db env) :=
  decidable_of_iff (env.uuid 0 ≠ session_id ∧
      (∀ u ∈ db .used_refresh_token, UsedRefreshToken.id u ≠ env.uuid 0) ∧
      (∀ r ∈ db .user_session,
        UserSession.refresh_digest r ≠ hash_refresh_token srv env.refresh_token) ∧
      (∀ u ∈ db .used_refresh_token,
        UsedRefreshToken.digest u ≠ hash_refresh_token srv env.refresh_token) ∧
      env.refresh_token ∉ presented ∧ env.refresh_token ≠ "" ∧ env.refresh_token.length ≤ 512)
    ⟨fun ⟨h₁, h₂, h₃, h₄, h₅, h₆⟩ => ⟨h₁, h₂, h₃, h₄, h₅, h₆⟩,
      fun h => ⟨h.id, h.used_id, h.digest, h.used_digest, h.token, h.length⟩⟩

/-- **Its own refresh.** The session gets new tokens, and the digest of the new one. -/
theorem DigestHeld.refreshed (hsha : Sha256 srv) {refresh_token : String}
    (h : DigestHeld session_id (hash_refresh_token srv refresh_token) w.db)
    (hlength : refresh_token.length ≤ 512) {presented : List String}
    (hdraws : DrawsNew srv session_id presented w.db env)
    (hlive : Refreshable session_id env w.db) :
    ∃ access_token, (serve srv env ⟨none, .refresh refresh_token⟩ w).1 =
        .success 200 (.tokens access_token env.refresh_token) ∧
      DigestHeld session_id (hash_refresh_token srv env.refresh_token)
        (serve srv env ⟨none, .refresh refresh_token⟩ w).2.db := by
  obtain ⟨⟨us, hus, rfl, hactive, account, hacc, howner, hon⟩, hfaults, hcommits⟩ := hlive
  have hdigest := h.current us hus rfl
  let P : Response Token → Committed → Prop := fun response w' =>
    ∃ access_token, response = .success 200 (.tokens access_token env.refresh_token) ∧
      Rotation srv env refresh_token w.db us w'.db
  have hP : P (serve srv env ⟨none, .refresh refresh_token⟩ w).1
      (serve srv env ⟨none, .refresh refresh_token⟩ w).2 := by
    apply serve_wps
    refine wps_require_bind (fun hlong => ?_) fun _ => ?_
    · simp [length_within, hlength] at hlong
    refine wps_bind ((wp_rethrow _ _).mpr ?_)
    refine wps_refresh_session_admitted h.consistent ?_ hus hdigest hactive hacc howner hon
      h.unused hdraws.used_id (fun token => (hsha _).le) hdraws.digest
      fun issued s' hrot _ htoken => ?_
    · show true ∉ env.faults
      rw [hfaults]
      exact List.not_mem_nil
    · refine (wp_pure _).mpr ⟨fun _ => ⟨issued.access_token, ?_, hrot⟩, fun hno => ?_⟩
      · rw [← htoken]
        rfl
      · rw [hcommits] at hno
        cases hno
  obtain ⟨access_token, hresponse, hrot⟩ := hP
  refine ⟨access_token, hresponse, serve_consistent h.consistent _, ?_, ?_⟩
  · -- a session of this id is the one that was rotated
    intro r' hr' hid
    rcases hrot.sessions hr' with ⟨r, _, hne, rfl⟩ | ⟨_, hnew⟩
    · exact absurd hid hne
    · exact hnew
  · intro u hu heq
    rcases hrot.used hu with hold | hspent
    · exact hdraws.used_digest u hold heq
    · exact hdraws.digest us hus (hdigest.trans (hspent.symm.trans heq))

end digest

/-! ### What is assumed, and what it takes -/

/-- The token that a refresh presents. -/
def presents : Route Token → Option String
  | .refresh refresh_token => some refresh_token
  | _ => none

/-- The assumptions about the server and the others, at one move: every request draws new
    values, the session can be refreshed when its token is presented and the answer arrives,
    and nobody else presents that token. -/
def Assumed (srv : Server Token) (session_id : Uuid) (b : Browser Token) :
    BrowserMove Token → Prop
  | .serve n env => DrawsNew srv session_id b.presented b.world.db env ∧
      ((b.calls[n]?).any (fun c => c.stands.renewing) = true →
        Refreshable session_id env b.world.db)
  | .other env req => DrawsNew srv session_id b.presented b.world.db env ∧
      ∀ refresh_token ∈ presents req.route,
        hash_refresh_token srv refresh_token ≠ hash_refresh_token srv b.issued.2
  | .reject n => (b.calls[n]?).any (fun c => c.stands.renewing) = false
  | _ => True

instance (session_id : Uuid) (b : Browser Token) :
    (move : BrowserMove Token) → Decidable (Assumed srv session_id b move)
  | .call _ => inferInstanceAs (Decidable True)
  | .serve n env => inferInstanceAs (Decidable (DrawsNew srv session_id b.presented b.world.db env ∧
      ((b.calls[n]?).any (fun c => c.stands.renewing) = true →
        Refreshable session_id env b.world.db)))
  | .resume _ => inferInstanceAs (Decidable True)
  | .reject n =>
      inferInstanceAs (Decidable ((b.calls[n]?).any (fun c => c.stands.renewing) = false))
  | .other env req =>
      inferInstanceAs (Decidable (DrawsNew srv session_id b.presented b.world.db env ∧
        ∀ refresh_token ∈ presents req.route,
          hash_refresh_token srv refresh_token ≠ hash_refresh_token srv b.issued.2))

/-- No call goes on from a 401 while another one is renewing the tokens. -/
def OneRefresh (b : Browser Token) : BrowserMove Token → Prop
  | .resume n => (b.calls[n]?).any (fun c => c.stands.lapsed) = true →
      ∀ c ∈ b.calls, c.stands.renewing = false
  | _ => True

instance (b : Browser Token) : (move : BrowserMove Token) → Decidable (OneRefresh b move)
  | .call _ => inferInstanceAs (Decidable True)
  | .serve _ _ => inferInstanceAs (Decidable True)
  | .resume n => inferInstanceAs (Decidable ((b.calls[n]?).any (fun c => c.stands.lapsed) = true →
      ∀ c ∈ b.calls, c.stands.renewing = false))
  | .reject _ => inferInstanceAs (Decidable True)
  | .other _ _ => inferInstanceAs (Decidable True)

def hold (issued : Token × String) : HeldTokens Token := ⟨some issued.1, some issued.2⟩

/-- The tokens are on their way to the variables. -/
def brings (issued : Token × String) : Await Token → Prop
  | .refreshed refreshed _ => refreshed = .success 200 (.tokens issued.1 issued.2)
  | .reading body => body = .tokens issued.1 issued.2
  | _ => False

/-- What a silent refresh is to be, at any point of a run. -/
structure SilentRefresh (srv : Server Token) (session_id : Uuid) (b : Browser Token) : Prop where
  /-- no refresh token is presented a second time -/
  presented_once : b.presented.Nodup
  /-- the tokens are never thrown away -/
  signed_in : b.held.access_token.isSome = true ∧ b.held.refresh_token.isSome = true
  /-- those issued last are in the variables, or a call brings them -/
  kept : b.held = hold b.issued ∨ ∃ c ∈ b.calls, brings b.issued c.stands
  /-- when all calls have settled, the variables are the tokens of the session -/
  current : (∀ c ∈ b.calls, c.stands.settled = true) → b.held = hold b.issued ∧
    ∀ r ∈ b.world.db .user_session, UserSession.id r = session_id →
      r.refresh_digest = hash_refresh_token srv b.issued.2

/-! ### Who has the tokens -/

/-- What a call that is renewing has: the tokens of the session to give away, or to bring. -/
def Renews (b : Browser Token) : Await Token → Prop
  | .refreshing refresh_token _ => b.held = hold b.issued ∧ refresh_token = b.issued.2
  | .refreshed refreshed _ => refreshed = .success 200 (.tokens b.issued.1 b.issued.2) ∧
      b.issued.2 ∉ b.presented
  | .reading body => body = .tokens b.issued.1 b.issued.2 ∧ b.issued.2 ∉ b.presented
  | _ => True

/-- **Invariant.** One call is renewing the tokens, or none is and the variables hold them. -/
structure Coherent (srv : Server Token) (session_id : Uuid) (b : Browser Token) : Prop where
  guarded : ∀ c ∈ b.calls, c.route.guarded = true
  digest : DigestHeld session_id (hash_refresh_token srv b.issued.2) b.world.db
  length : b.issued.2 ≠ "" ∧ b.issued.2.length ≤ 512
  presented_once : b.presented.Nodup
  signed_in : b.held.access_token.isSome = true ∧ b.held.refresh_token.isSome = true
  one : ∀ (n m : Nat) (c d : PageCall Token), b.calls[n]? = some c → b.calls[m]? = some d →
    c.stands.renewing = true → d.stands.renewing = true → n = m
  idle : (∀ c ∈ b.calls, c.stands.renewing = false) →
    b.held = hold b.issued ∧ b.issued.2 ∉ b.presented
  renews : ∀ (n : Nat) (c : PageCall Token), b.calls[n]? = some c → Renews b c.stands

section moves
variable {session_id : Uuid} {b b' : Browser Token} {n : Nat} {c : PageCall Token}

theorem get_set {calls : List (PageCall Token)} {m : Nat} {d : PageCall Token}
    (h : (calls.set n c)[m]? = some d) : (m = n ∧ d = c) ∨ (m ≠ n ∧ calls[m]? = some d) := by
  rw [List.getElem?_set] at h
  split at h
  next hnm =>
    split at h
    · exact .inl ⟨hnm.symm, (Option.some.inj h).symm⟩
    · cases h
  next hnm => exact .inr ⟨fun heq => hnm heq.symm, h⟩

theorem renews_idle {stands : Await Token} (h : stands.renewing = false) : Renews b stands := by
  cases stands <;> first | exact trivial | cases h

/-- The moves that leave the tokens, the history and the calls that are renewing alone. -/
theorem Coherent.keep (h : Coherent srv session_id b)
    (hguarded : ∀ c ∈ b'.calls, c.route.guarded = true) (hheld : b'.held = b.held)
    (hpresented : b'.presented = b.presented) (hissued : b'.issued = b.issued)
    (hdigest : DigestHeld session_id (hash_refresh_token srv b.issued.2) b'.world.db)
    (hcalls : ∀ (n : Nat) (c : PageCall Token), c.stands.renewing = true →
      (b'.calls[n]? = some c ↔ b.calls[n]? = some c)) :
    Coherent srv session_id b' := by
  have hrenews : ∀ stands, Renews b' stands = Renews b stands := by
    intro stands
    unfold Renews
    rw [hheld, hpresented, hissued]
  refine ⟨hguarded, ?_, ?_, ?_, ?_, ?_, ?_, ?_⟩
  · rwa [hissued]
  · rw [hissued]
    exact h.length
  · rw [hpresented]
    exact h.presented_once
  · rw [hheld]
    exact h.signed_in
  · intro n m c d hc hd hrc hrd
    exact h.one n m c d ((hcalls n c hrc).mp hc) ((hcalls m d hrd).mp hd) hrc hrd
  · intro hidle
    rw [hheld, hpresented, hissued]
    refine h.idle fun c hc => ?_
    obtain ⟨n, hn⟩ := List.mem_iff_getElem?.mp hc
    cases hrc : c.stands.renewing with
    | false => rfl
    | true =>
      -- it would be renewing after the move as well
      have hlater := List.mem_iff_getElem?.mpr ⟨n, (hcalls n c hrc).mpr hn⟩
      exact absurd hrc (by rw [hidle c hlater]; exact Bool.false_ne_true)
  · intro n c hc
    cases hrc : c.stands.renewing with
    | false => exact renews_idle hrc
    | true =>
      rw [hrenews]
      exact h.renews n c ((hcalls n c hrc).mp hc)

/-- The moves of the one call that is renewing. -/
theorem coherent_of_one {calls : List (PageCall Token)}
    (hone : ∀ (m : Nat) (d : PageCall Token), calls[m]? = some d → d.stands.renewing = true → m = n)
    (hset : b'.calls = calls.set n c) (hn : n < calls.length)
    (hguarded : ∀ d ∈ b'.calls, d.route.guarded = true)
    (hdigest : DigestHeld session_id (hash_refresh_token srv b'.issued.2) b'.world.db)
    (hlength : b'.issued.2 ≠ "" ∧ b'.issued.2.length ≤ 512) (honce : b'.presented.Nodup)
    (hsigned : b'.held.access_token.isSome = true ∧ b'.held.refresh_token.isSome = true)
    (hidle : c.stands.renewing = false → b'.held = hold b'.issued ∧ b'.issued.2 ∉ b'.presented)
    (hrenews : Renews b' c.stands) : Coherent srv session_id b' := by
  have hthis : ∀ m d, b'.calls[m]? = some d → d.stands.renewing = true → m = n := by
    intro m d hd hrd
    rw [hset] at hd
    rcases get_set hd with ⟨hm, _⟩ | ⟨_, hold⟩
    · exact hm
    · exact hone m d hold hrd
  refine ⟨hguarded, hdigest, hlength, honce, hsigned, ?_, ?_, ?_⟩
  · intro m k d e hd he hrd hre
    rw [hthis m d hd hrd, hthis k e he hre]
  · intro hall
    refine hidle (hall c ?_)
    rw [hset]
    exact List.mem_iff_getElem?.mpr ⟨n, List.getElem?_set_self hn⟩
  · intro m d hd
    rw [hset] at hd
    rcases get_set hd with ⟨_, rfl⟩ | ⟨hm, hold⟩
    · exact hrenews
    · refine renews_idle ?_
      cases hrd : d.stands.renewing with
      | false => rfl
      | true => exact absurd (hone m d hold hrd) hm

/-- A call that was not renewing, and is not after the move. -/
theorem set_idle {calls : List (PageCall Token)} {c₀ : PageCall Token} (h : calls[n]? = some c₀)
    (hbefore : c₀.stands.renewing = false) (hafter : c.stands.renewing = false) (m : Nat)
    (d : PageCall Token) (hrd : d.stands.renewing = true) :
    (calls.set n c)[m]? = some d ↔ calls[m]? = some d := by
  by_cases hm : n = m
  · subst hm
    have hn : n < calls.length := (List.getElem?_eq_some_iff.mp h).1
    rw [List.getElem?_set_self hn, h]
    constructor
    · intro heq
      rw [← Option.some.inj heq, hafter] at hrd
      cases hrd
    · intro heq
      rw [← Option.some.inj heq, hbefore] at hrd
      cases hrd
  · rw [List.getElem?_set_ne hm]

theorem guarded_set {c₀ : PageCall Token} {stands : Await Token}
    (h : ∀ c ∈ b.calls, c.route.guarded = true) (hc : b.calls[n]? = some c₀) :
    ∀ c ∈ b.calls.set n ⟨c₀.route, stands⟩, c.route.guarded = true := by
  intro c hmem
  rcases List.mem_or_eq_of_mem_set hmem with hold | rfl
  · exact h c hold
  · exact h c₀ (List.mem_iff_getElem?.mpr ⟨n, hc⟩)

theorem refreshes_of_guarded {route : Route Token} (h : route.guarded = true) :
    route.refreshes = false := by
  cases route <;> first | rfl | cases h

theorem Coherent.call (h : Coherent srv session_id b) {route : Route Token}
    (hroute : route.guarded = true) :
    Coherent srv session_id { b with calls := b.calls ++ [⟨route, send b.held true⟩] } := by
  refine h.keep (fun c hc => ?_) rfl rfl rfl h.digest fun n c hrc => ?_
  · rcases List.mem_append.mp hc with hold | hnew
    · exact h.guarded c hold
    · rw [List.mem_singleton.mp hnew]
      exact hroute
  · constructor
    · intro hc
      rw [List.getElem?_append] at hc
      split at hc
      · exact hc
      · -- the new call is not renewing
        obtain rfl := List.mem_singleton.mp (List.mem_iff_getElem?.mpr ⟨_, hc⟩)
        cases hrc
    · intro hc
      rw [List.getElem?_append_left (List.getElem?_eq_some_iff.mp hc).1]
      exact hc

/-- The server takes up a request that is no refresh. -/
theorem Coherent.serve_sent (h : Coherent srv session_id b) {route : Route Token} {retry : Bool}
    {authorization : Option Token} {env : Env}
    (hc : b.calls[n]? = some ⟨route, .sent retry authorization⟩) (hid : env.uuid 0 ≠ session_id) :
    Coherent srv session_id { b with
      calls := b.calls.set n
        ⟨route, .answered retry (serve srv env ⟨authorization, route⟩ b.world).1⟩
      world := (serve srv env ⟨authorization, route⟩ b.world).2 } := by
  have hroute : route.guarded = true := h.guarded _ (List.mem_iff_getElem?.mpr ⟨n, hc⟩)
  refine h.keep (guarded_set h.guarded hc) rfl rfl rfl ?_ (set_idle hc rfl rfl)
  exact h.digest.served (refreshes_of_guarded hroute) hid

/-- The server takes up the refresh. -/
theorem Coherent.serve_refreshing (hsha : Sha256 srv) (h : Coherent srv session_id b)
    {route : Route Token} {refresh_token : String} {response : Response Token} {env : Env}
    (hc : b.calls[n]? = some ⟨route, .refreshing refresh_token response⟩)
    (hdraws : DrawsNew srv session_id b.presented b.world.db env)
    (hlive : Refreshable session_id env b.world.db) :
    Coherent srv session_id { b with
      calls := b.calls.set n
        ⟨route, .refreshed (serve srv env ⟨none, .refresh refresh_token⟩ b.world).1 response⟩
      world := (serve srv env ⟨none, .refresh refresh_token⟩ b.world).2
      issued := renewed b.issued (serve srv env ⟨none, .refresh refresh_token⟩ b.world).1 } := by
  obtain ⟨_, rfl⟩ : b.held = hold b.issued ∧ refresh_token = b.issued.2 := h.renews n _ hc
  obtain ⟨access_token, hresponse, hdigest⟩ := h.digest.refreshed hsha h.length.2 hdraws hlive
  rw [hresponse]
  refine coherent_of_one (fun m d hd hrd => h.one m n d _ hd hc hrd rfl) rfl
    (List.getElem?_eq_some_iff.mp hc).1 (guarded_set h.guarded hc) hdigest hdraws.length
    h.presented_once h.signed_in (fun hidle => ?_) ⟨rfl, hdraws.token⟩
  cases hidle

/-- A call goes on from a 401, and presents the refresh token. -/
theorem Coherent.present (h : Coherent srv session_id b) {response : Response Token}
    {refresh_token : String} (hc : b.calls[n]? = some c)
    (hnone : ∀ c ∈ b.calls, c.stands.renewing = false)
    (htoken : truthy b.held.refresh_token = some refresh_token) :
    Coherent srv session_id { b with
      calls := b.calls.set n ⟨c.route, .refreshing refresh_token response⟩
      presented := refresh_token :: b.presented } := by
  obtain ⟨hheld, hnew⟩ := h.idle hnone
  obtain rfl : refresh_token = b.issued.2 := by
    rw [hheld] at htoken
    exact (Option.some.inj (Option.filter_eq_some_iff.mp htoken).1).symm
  refine coherent_of_one (fun m d hd hrd => ?_) rfl (List.getElem?_eq_some_iff.mp hc).1
    (guarded_set h.guarded hc) h.digest h.length (List.nodup_cons.mpr ⟨hnew, h.presented_once⟩)
    h.signed_in (fun hidle => ?_) ⟨hheld, rfl⟩
  · rw [hnone d (List.mem_iff_getElem?.mpr ⟨m, hd⟩)] at hrd
    cases hrd
  · cases hidle

/-- A call takes up the response to its refresh. -/
theorem Coherent.read (h : Coherent srv session_id b) {refreshed response : Response Token}
    (hc : b.calls[n]? = some c) (hstands : c.stands = .refreshed refreshed response) :
    refreshed.ok = true ∧ Coherent srv session_id { b with
      calls := b.calls.set n ⟨c.route, .reading refreshed.json⟩ } := by
  have hrenews := h.renews n c hc
  rw [hstands] at hrenews
  obtain ⟨rfl, hnew⟩ := hrenews
  refine ⟨rfl, coherent_of_one (fun m d hd hrd => ?_) rfl (List.getElem?_eq_some_iff.mp hc).1
    (guarded_set h.guarded hc) h.digest h.length h.presented_once h.signed_in (fun hidle => ?_)
    ⟨rfl, hnew⟩⟩
  · exact h.one m n d c hd hc hrd (by rw [hstands]; rfl)
  · cases hidle

/-- A call sets the tokens, and sends its request again. -/
theorem Coherent.take_up (h : Coherent srv session_id b) {body : Reply Token}
    (hc : b.calls[n]? = some c) (hstands : c.stands = .reading body) :
    Coherent srv session_id { b with
      held := set_tokens body
      calls := b.calls.set n ⟨c.route, send (set_tokens body) false⟩ } := by
  have hrenews := h.renews n c hc
  rw [hstands] at hrenews
  obtain ⟨rfl, hnew⟩ := hrenews
  refine coherent_of_one (fun m d hd hrd => ?_) rfl (List.getElem?_eq_some_iff.mp hc).1
    (guarded_set h.guarded hc) h.digest h.length h.presented_once ⟨rfl, rfl⟩ (fun _ => ⟨rfl, hnew⟩)
    trivial
  exact h.one m n d c hd hc hrd (by rw [hstands]; rfl)

/-- A call that is not renewing comes to its end. -/
theorem Coherent.settle (h : Coherent srv session_id b) {stands : Await Token}
    (hc : b.calls[n]? = some c) (hbefore : c.stands.renewing = false)
    (hafter : stands.renewing = false) :
    Coherent srv session_id { b with calls := b.calls.set n ⟨c.route, stands⟩ } :=
  h.keep (guarded_set h.guarded hc) rfl rfl rfl h.digest (set_idle hc hbefore hafter)

/-- The server takes up a request of somebody else. -/
theorem Coherent.other (h : Coherent srv session_id b) {env : Env} {req : Request Token}
    (hid : env.uuid 0 ≠ session_id)
    (hnot : ∀ refresh_token ∈ presents req.route,
      hash_refresh_token srv refresh_token ≠ hash_refresh_token srv b.issued.2) :
    Coherent srv session_id { b with world := (serve srv env req b.world).2 } := by
  refine h.keep h.guarded rfl rfl rfl ?_ fun _ _ _ => Iff.rfl
  show DigestHeld _ _ (serve srv env req b.world).2.db
  cases hroute : req.route.refreshes with
  | false => exact h.digest.served hroute hid
  | true =>
    obtain ⟨credentials, route⟩ := req
    cases route <;> try exact absurd hroute Bool.false_ne_true
    case refresh refresh_token => exact h.digest.refreshed_other (hnot refresh_token rfl)

theorem Coherent.serve (hsha : Sha256 srv) (h : Coherent srv session_id b) {env : Env}
    (hassumed : Assumed srv session_id b (.serve n env))
    (hnext : b.next srv (.serve n env) = some b') : Coherent srv session_id b' := by
  obtain ⟨hdraws, hlive⟩ := hassumed
  dsimp only [Browser.next] at hnext
  split at hnext
  · next route retry authorization hc =>
    cases hnext
    exact h.serve_sent hc hdraws.id
  · next route refresh_token response hc =>
    cases hnext
    refine h.serve_refreshing hsha hc hdraws (hlive ?_)
    rw [hc]
    rfl
  · cases hnext

theorem Coherent.resume (h : Coherent srv session_id b) (hone : OneRefresh b (.resume n))
    (hnext : b.next srv (.resume n) = some b') : Coherent srv session_id b' := by
  dsimp only [Browser.next] at hnext
  cases hc : b.calls[n]? with
  | none =>
    rw [hc] at hnext
    cases hnext
  | some c =>
    rw [hc] at hnext
    dsimp only at hnext
    cases hstands : c.stands with
    | answered retry response =>
      have hidle : c.stands.renewing = false := by
        rw [hstands]
        rfl
      rw [hstands] at hnext
      dsimp only [CounselReady.resume] at hnext
      cases htoken : truthy b.held.refresh_token with
      | none =>
        rw [htoken] at hnext
        cases hnext
        exact h.settle hc hidle rfl
      | some refresh_token =>
        rw [htoken] at hnext
        dsimp only at hnext
        cases hlapsed : response.status == 401 && retry with
        | false =>
          rw [hlapsed] at hnext
          cases hnext
          exact h.settle hc hidle rfl
        | true =>
          rw [hlapsed] at hnext
          cases hnext
          -- a 401 with its retry left: nobody else is renewing
          refine h.present hc (hone ?_) htoken
          rw [hc]
          show c.stands.lapsed = true
          rw [hstands]
          exact hlapsed
    | refreshed refreshed response =>
      obtain ⟨hok, hread⟩ := h.read hc hstands
      rw [hstands] at hnext
      dsimp only [CounselReady.resume] at hnext
      rw [if_pos hok] at hnext
      cases hnext
      exact hread
    | reading body =>
      rw [hstands] at hnext
      cases hnext
      exact h.take_up hc hstands
    | _ =>
      rw [hstands] at hnext
      cases hnext

theorem Coherent.reject (h : Coherent srv session_id b)
    (hidle : (b.calls[n]?).any (fun c => c.stands.renewing) = false)
    (hnext : b.next srv (.reject n) = some b') : Coherent srv session_id b' := by
  dsimp only [Browser.next] at hnext
  cases hc : b.calls[n]? with
  | none =>
    rw [hc] at hnext
    cases hnext
  | some c =>
    rw [hc] at hnext hidle
    dsimp only at hnext
    split at hnext
    · cases hnext
    · cases hnext
      exact h.settle hc hidle rfl

/-- **Step.** One refresh at a time keeps it. -/
theorem coherent_next (hsha : Sha256 srv) (h : Coherent srv session_id b)
    {move : BrowserMove Token} (hassumed : Assumed srv session_id b move)
    (hone : OneRefresh b move) (hnext : b.next srv move = some b') :
    Coherent srv session_id b' := by
  cases move with
  | call route =>
    dsimp only [Browser.next] at hnext
    split at hnext
    · next hroute =>
      cases hnext
      exact h.call hroute
    · cases hnext
  | serve n env => exact h.serve hsha hassumed hnext
  | resume n => exact h.resume hone hnext
  | reject n => exact h.reject hassumed hnext
  | other env req =>
    cases hnext
    exact h.other hassumed.1.id hassumed.2

theorem Coherent.silent (h : Coherent srv session_id b) : SilentRefresh srv session_id b := by
  refine ⟨h.presented_once, h.signed_in, ?_, fun hsettled => ⟨?_, h.digest.current⟩⟩
  · by_cases hidle : ∀ c ∈ b.calls, c.stands.renewing = false
    · exact .inl (h.idle hidle).1
    · obtain ⟨c, hc, hrc⟩ : ∃ c ∈ b.calls, c.stands.renewing = true := by
        simpa using hidle
      obtain ⟨n, hn⟩ := List.mem_iff_getElem?.mp hc
      have hrenews := h.renews n c hn
      cases hstands : c.stands with
      | refreshing refresh_token response =>
        rw [hstands] at hrenews
        exact .inl hrenews.1
      | refreshed refreshed response =>
        refine .inr ⟨c, hc, ?_⟩
        rw [hstands] at hrenews ⊢
        exact hrenews.1
      | reading body =>
        refine .inr ⟨c, hc, ?_⟩
        rw [hstands] at hrenews ⊢
        exact hrenews.1
      | _ =>
        rw [hstands] at hrc
        cases hrc
  · refine (h.idle fun c hc => ?_).1
    have hs := hsettled c hc
    cases hstands : c.stands <;> rw [hstands] at hs <;> first | rfl | cases hs

end moves

/-! ### In every run -/

/-- One move of the page, the server or the others. -/
def browses (srv : Server Token) (b : Browser Token) (move : BrowserMove Token)
    (b' : Browser Token) : Prop := b.next srv move = some b'

/-- The page has the tokens of the session, and nothing under way. -/
structure HoldsTokens (srv : Server Token) (session_id : Uuid) (b : Browser Token) : Prop where
  held : b.held = hold b.issued
  calls : b.calls = []
  presented : b.presented = []
  digest : DigestHeld session_id (hash_refresh_token srv b.issued.2) b.world.db
  length : b.issued.2 ≠ "" ∧ b.issued.2.length ≤ 512

theorem HoldsTokens.coherent {session_id : Uuid} {b : Browser Token}
    (h : HoldsTokens srv session_id b) : Coherent srv session_id b := by
  obtain ⟨hheld, hcalls, hpresented, hdigest, hlength⟩ := h
  refine ⟨?_, hdigest, hlength, ?_, ?_, ?_, fun _ => ⟨hheld, ?_⟩, ?_⟩
  · rw [hcalls]
    exact fun c hc => absurd hc List.not_mem_nil
  · rw [hpresented]
    exact List.nodup_nil
  · rw [hheld]
    exact ⟨rfl, rfl⟩
  · rw [hcalls]
    intro n m c d hc
    cases hc
  · rw [hpresented]
    exact List.not_mem_nil
  · rw [hcalls]
    intro n c hc
    cases hc

/-- **Silent, one at a time.** In every run in which no two calls are renewing at once. -/
theorem silent_one_at_a_time (hsha : Sha256 srv) {session_id : Uuid} {b₀ b : Browser Token}
    (h₀ : HoldsTokens srv session_id b₀) {past : List (BrowserMove Token × Browser Token)}
    (hr : Run (browses srv) (fun _ b move => Assumed srv session_id b move ∧ OneRefresh b move)
      b₀ past b) : SilentRefresh srv session_id b := by
  have hcoherent : Coherent srv session_id b := by
    refine hr.invariant (I := fun _ b => Coherent srv session_id b) h₀.coherent ?_
    intro past b move b' _ ih hmay hnext
    exact coherent_next hsha ih hmay.1 hmay.2 hnext
  exact hcoherent.silent

/-! ### The two requests of a case page -/

namespace Sample

/-- The owner of an account, an hour after the login. -/
def signed_in : Browser Payload :=
  let issued := (access_claims 4096#128 8192#128 (101 * second), "2")
  ⟨hold issued, [], (play [⟨2, 101 * second, ⟨none, .login "a@x.org" "correct horse"⟩⟩,
    ⟨1, 100 * second, ⟨none, .register "a@x.org" "correct horse" none⟩⟩]).world, [], issued⟩

def hour_later (serial : Nat) : Env := env serial (3701 * second)

/-- Both are answered 401, and both present the token they find. -/
def parallel : List (BrowserMove Payload) :=
  [.resume 1, .resume 0, .resume 0, .serve 1 (hour_later 6), .serve 0 (hour_later 5),
    .resume 1, .resume 0, .serve 1 (hour_later 4), .serve 0 (hour_later 3),
    .call (.list_documents 7#128), .call (.read_case 7#128)]

/-- The first is through with it when the second is answered. -/
def in_turn : List (BrowserMove Payload) :=
  [.resume 1, .serve 1 (hour_later 7), .resume 0, .serve 0 (hour_later 6), .resume 0, .resume 0,
    .serve 0 (hour_later 5), .resume 0, .serve 0 (hour_later 3),
    .call (.list_documents 7#128), .call (.read_case 7#128)]

theorem signed_in_holds : HoldsTokens server 8192#128 signed_in := by
  have hsound : schema.Consistent signed_in.world.db :=
    (sound_of_admissible (by decide +kernel)).1
  exact ⟨rfl, rfl, rfl, ⟨hsound, by decide +kernel, by decide +kernel⟩, by decide +kernel⟩

end Sample

theorem both_calls_refresh :
    HoldsTokens Sample.server 8192#128 Sample.signed_in ∧
      ¬ ∀ past b, Run (browses Sample.server)
          (fun _ b move => Assumed Sample.server 8192#128 b move) Sample.signed_in past b →
        SilentRefresh Sample.server 8192#128 b := by
  refine ⟨Sample.signed_in_holds, fun hall => ?_⟩
  have hscript : (follow (Browser.next Sample.server)
      (fun b move => decide (Assumed Sample.server 8192#128 b move)) Sample.signed_in
      Sample.parallel).any (fun b => b.held.refresh_token.isNone) = true := by
    decide +kernel
  obtain ⟨b, hb, hnone⟩ := (Option.any_eq_true _ _).mp hscript
  obtain ⟨past, hr⟩ := run_follow hb
  have hsilent := hall past b (hr.mono fun _ _ _ hmay => of_decide_eq_true hmay)
  have hheld := hsilent.signed_in.2
  rw [Option.isNone_iff_eq_none.mp hnone] at hheld
  cases hheld

theorem calls_in_turn :
    ∃ past b, Run (browses Sample.server)
        (fun _ b move => Assumed Sample.server 8192#128 b move ∧ OneRefresh b move)
        Sample.signed_in past b ∧
      b.presented = ["5", "2"] ∧ SilentRefresh Sample.server 8192#128 b := by
  have hscript : (follow (Browser.next Sample.server)
      (fun b move => decide (Assumed Sample.server 8192#128 b move ∧ OneRefresh b move))
      Sample.signed_in Sample.in_turn).any (fun b => decide (b.presented = ["5", "2"])) = true := by
    decide +kernel
  obtain ⟨b, hb, hpresented⟩ := (Option.any_eq_true _ _).mp hscript
  obtain ⟨past, hr⟩ := run_follow hb
  have hr' := hr.mono fun _ _ _ hmay => of_decide_eq_true hmay
  exact ⟨past, b, hr', of_decide_eq_true hpresented,
    silent_one_at_a_time Sample.sha256_length Sample.signed_in_holds hr'⟩

end CounselReady
