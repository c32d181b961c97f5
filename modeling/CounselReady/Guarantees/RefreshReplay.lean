import CounselReady.Sample
import CounselReady.Specs.Sessions

/-! # Replay of a Rotated Refresh Token

    A refresh token presented a second time is taken for stolen: the replay
    branch of `refresh_session` revokes the session and raises. The raise rolls
    the revocation back, so the session ends for good only when it was revoked
    before.

    * A revoked session is dead for ever (`Dead`): no step of a run brings it
      back, and nothing that was ever one of its tokens is honoured again.
    * A replay leaves the committed rows as they were (`serve_replay`).
-/

namespace CounselReady

open Relational Framework

variable {Token : Type} {srv : Server Token}

/-! ### Tokens of a session -/

/-- The token was exchanged for another one of the same session. -/
def RotatedAway (srv : Server Token) (db : Database) (S : UserSession) (refresh_token : String) :
    Prop :=
  ∃ u ∈ db .used_refresh_token, UsedRefreshToken.session_id u = S.id ∧
    UsedRefreshToken.digest u = hash_refresh_token srv refresh_token

/-- The session's present refresh token, or one it has had. -/
def RefreshTokenOf (srv : Server Token) (db : Database) (S : UserSession)
    (refresh_token : String) : Prop :=
  S.refresh_digest = hash_refresh_token srv refresh_token ∨ RotatedAway srv db S refresh_token

/-- The request presents an access token that carries the session's id to a
    route that asks for one. -/
def PresentsAccess (srv : Server Token) (env : Env) (session_id : Uuid) (req : Request Token) :
    Prop :=
  req.route.guarded = true ∧ ∃ token, req.credentials = some token ∧
    ∃ p, srv.jwt_decode token env.now = some p ∧ p.sid = some session_id

def Revoked (db : Database) (session_id : Uuid) : Prop :=
  (∃ s ∈ db .user_session, UserSession.id s = session_id) ∧
    ∀ s ∈ db .user_session, UserSession.id s = session_id → s.revoked_at.isSome = true

/-- In every continuation of the run, what the session's tokens ask for is refused. -/
def RefusedForever (srv : Server Token) (db : Database) (S : UserSession) (h : History Token) :
    Prop :=
  ∀ h', Reaches srv (Honest srv) h h' → ∀ env req,
    ((∃ refresh_token, req.route = .refresh refresh_token ∧
        RefreshTokenOf srv db S refresh_token) ∨ PresentsAccess srv env S.id req) →
    (serve srv env req h'.world).1.refuses

/-! ### Dead sessions -/

/-- The session is revoked, and no other session owns one of its digests. -/
structure Dead (session_id : Uuid) (digests : String → Prop) (db : Database) : Prop where
  revoked : ∀ s ∈ db .user_session, UserSession.id s = session_id → s.revoked_at.isSome = true
  owned : ∀ s ∈ db .user_session, digests (UserSession.refresh_digest s) → s.id = session_id

/-- The run has seen the session and its digests. -/
structure Known (session_id : Uuid) (digests : String → Prop) (h : History Token) : Prop where
  id : ∃ w ∈ h.worlds, ∃ s ∈ w.db .user_session, UserSession.id s = session_id
  digests : ∀ d, digests d → ∃ w ∈ h.worlds,
    (∃ s ∈ w.db .user_session, UserSession.refresh_digest s = d) ∨
      ∃ u ∈ w.db .used_refresh_token, UsedRefreshToken.digest u = d

theorem Known.mono {session_id : Uuid} {digests : String → Prop} {h h' : History Token}
    (hk : Known session_id digests h) (hsub : ∀ w ∈ h.worlds, w ∈ h'.worlds) :
    Known session_id digests h' where
  id := by
    obtain ⟨w, hw, hs⟩ := hk.id
    exact ⟨w, hsub w hw, hs⟩
  digests := by
    intro d hd
    obtain ⟨w, hw, hs⟩ := hk.digests d hd
    exact ⟨w, hsub w hw, hs⟩

theorem Fresh.not_known_id {h : History Token} {env : Env} {session_id : Uuid}
    {digests : String → Prop} (hf : Fresh srv h env) (hk : Known session_id digests h) (i : Nat) :
    env.uuid i ≠ session_id := by
  obtain ⟨w, hw, s, hs, rfl⟩ := hk.id
  exact (hf.ids w hw .user_session s hs i).symm

theorem Fresh.not_known_digest {h : History Token} {env : Env} {session_id : Uuid}
    {digests : String → Prop} (hf : Fresh srv h env) (hk : Known session_id digests h) :
    ¬ digests (hash_refresh_token srv env.refresh_token) := by
  intro hd
  obtain ⟨w, hw, ⟨s, hs, heq⟩ | ⟨u, hu, heq⟩⟩ := hk.digests _ hd
  · exact hf.session_digests w hw s hs heq
  · exact hf.used_digests w hw u hu heq

/-- **Step.** No step brings a dead session back. -/
theorem Dead.step {h : History Token} {s : Step Token} {session_id : Uuid}
    {digests : String → Prop} (hon : Honest srv h s) (hk : Known session_id digests h)
    (hd : Dead session_id digests h.world.db) :
    Dead session_id digests (h.next srv s).world.db := by
  refine Step.run_db_invariant ?_ hd
  intro w db hp _ hdb
  cases s with
  | ocr env document_id engine =>
    -- OCR touches documents and pages only
    have hsame : ∀ r ∈ schema.effect (schema.resolve db w) db .user_session,
        r ∈ db .user_session := by
      intro r hr
      rcases Schema.mem_effect_resolve (rigid (by decide)) hr with hold | rfl |
        ⟨id, p, r₀, _, rfl, _, _⟩
      · exact hold
      · exact hp.elim
      · exact hp.elim
    exact ⟨fun r hr => hdb.revoked r (hsame r hr), fun r hr => hdb.owned r (hsame r hr)⟩
  | request env req =>
    obtain ⟨hf, _⟩ := hon
    constructor
    · intro r hr hid
      rcases session_from hp hr with ⟨r₀, hr₀, hcarried, _⟩ | ⟨_, _, hid₀, _⟩
      · exact hcarried.revoked (hdb.revoked r₀ hr₀ (hcarried.id ▸ hid))
      · exact absurd (hid₀.symm.trans hid) (hf.not_known_id hk 0)
    · intro r hr hdig
      rcases session_from hp hr with ⟨r₀, hr₀, hcarried, hsame | ⟨_, hnew⟩⟩ | ⟨_, _, _, hnew⟩
      · rw [hcarried.id]
        exact hdb.owned r₀ hr₀ (hsame ▸ hdig)
      · exact absurd (hnew ▸ hdig) (hf.not_known_digest hk)
      · exact absurd (hnew ▸ hdig) (hf.not_known_digest hk)

/-- **Run.** Nor does any run. -/
theorem Dead.run {h h' : History Token} {session_id : Uuid} {digests : String → Prop}
    (hr : Reaches srv (Honest srv) h h') (hk : Known session_id digests h)
    (hd : Dead session_id digests h.world.db) : Dead session_id digests h'.world.db := by
  induction hr with
  | refl => exact hd
  | step s hr hon ih => exact Dead.step hon (hk.mono hr.worlds_subset) ih

/-- A dead session's refresh tokens are refused. -/
theorem Dead.refuses_refresh {w : Committed} {session_id : Uuid} {digests : String → Prop}
    (hd : Dead session_id digests w.db) {env : Env} {credentials : Option Token}
    {refresh_token : String} (ht : digests (hash_refresh_token srv refresh_token)) :
    (serve srv env ⟨credentials, .refresh refresh_token⟩ w).1.refuses := by
  rcases serve_refresh srv env credentials refresh_token w with ⟨us, hrot⟩ | ⟨href, _⟩
  · have hid := hd.owned us hrot.mem (hrot.digest.symm ▸ ht)
    have hrev := hd.revoked us hrot.mem hid
    have hact := hrot.active
    simp only [UserSession.is_active, Bool.and_eq_true, Option.isNone_iff_eq_none] at hact
    rw [hact.1] at hrev
    cases hrev
  · exact href

/-- A dead session's access tokens are refused. -/
theorem Dead.refuses_access {w : Committed} {session_id : Uuid} {digests : String → Prop}
    (hd : Dead session_id digests w.db) {env : Env} {req : Request Token}
    (hp : PresentsAccess srv env session_id req) : (serve srv env req w).1.refuses := by
  obtain ⟨hg, token, htoken, p, hdec, hsid⟩ := hp
  obtain ⟨f, hf⟩ : ∃ f, respond srv env req = authenticated srv env req.credentials >>= f :=
    respond_guarded hg
  let P : Response Token → Committed → Prop := fun resp _ => resp.refuses
  have hP : P (serve srv env req w).1 (serve srv env req w).2 := by
    apply serve_wps
    rw [hf]
    refine wps_authenticated_bind (fun e => answer_error_refuses _ e) fun auth hauth => ?_
    obtain ⟨token', htoken', claims, hclaims, _, hsess⟩ := hauth.token
    rw [htoken] at htoken'
    cases htoken'
    obtain ⟨p', hdec', _, _, hsid', _⟩ := decode_access_token_eq_some.mp hclaims
    rw [hdec] at hdec'
    cases hdec'
    have hid : auth.session_id = session_id := by
      rw [← hsess]
      exact Option.some.inj (hsid'.symm.trans hsid)
    obtain ⟨us, hus, husid, hact⟩ := hauth.session
    have hrev := hd.revoked us hus (husid.trans hid)
    simp only [UserSession.is_active, Bool.and_eq_true, Option.isNone_iff_eq_none] at hact
    rw [hact.1] at hrev
    cases hrev
  exact hP

/-! ### Spent digests stay spent -/

/-- A digest that was rotated away belongs to the session it was taken from. -/
def SpentOnce (db : Database) : Prop :=
  ∀ u ∈ db .used_refresh_token, ∀ s ∈ db .user_session,
    UserSession.refresh_digest s = UsedRefreshToken.digest u →
      s.id = UsedRefreshToken.session_id u

theorem SpentOnce.rotation {env : Env} {refresh_token : String} {h : History Token}
    {us : UserSession} {db' : Database} (hs : SpentOnce h.world.db)
    (hc : schema.Consistent h.world.db) (hf : Fresh srv h env)
    (hrot : Rotation srv env refresh_token h.world.db us db') : SpentOnce db' := by
  intro u hu s hsmem hdig
  rw [hrot.result] at hu hsmem
  -- the session of the digest that is being spent
  have hsame : ∀ s₀ ∈ h.world.db .user_session,
      UserSession.refresh_digest s₀ = hash_refresh_token srv refresh_token → s₀.id = us.id := by
    intro s₀ hs₀ hd₀
    have hclash : schema.clash .user_session s₀ us = true := by
      simp [schema, row_clash, hd₀, hrot.digest]
    rw [hc.eq_of_clash schema_regular hs₀ hrot.mem hclash]
  have hu' : u ∈ h.world.db .used_refresh_token ∨
      u = ⟨env.uuid 0, us.id, hash_refresh_token srv refresh_token⟩ := by
    rw [Schema.effect_update_ne _ _ _ (by decide)] at hu
    exact Schema.mem_effect_insert.mp hu
  obtain ⟨s₀, hs₀, rfl⟩ := Schema.mem_effect_update.mp hsmem
  rw [Schema.effect_insert_ne _ _ (by decide)] at hs₀
  by_cases hid : UserSession.id s₀ = us.id
  · -- the rotated session holds a digest nobody has seen
    rw [Schema.patched_of_eq hid] at hdig
    have hnew : hash_refresh_token srv env.refresh_token = UsedRefreshToken.digest u := hdig
    rcases hu' with hold | rfl
    · exact absurd hnew.symm (hf.used_digests _ h.world_mem_worlds u hold)
    · refine absurd ?_ (hf.session_digests _ h.world_mem_worlds us hrot.mem)
      rw [hrot.digest, hnew]
  · rw [Schema.patched_of_ne hid] at hdig ⊢
    rcases hu' with hold | rfl
    · exact hs u hold s₀ hs₀ hdig
    · exact absurd (hsame s₀ hs₀ hdig) hid

/-- Outside a rotation the digests that are spent stay as they are. -/
theorem SpentOnce.other {h : History Token} {s : Step Token} (hon : Honest srv h s)
    (hs : SpentOnce h.world.db) (hno : ∀ env req, s = .request env req →
      req.route.refreshes = false) : SpentOnce (h.next srv s).world.db := by
  let J : Database → Prop := fun db => SpentOnce db ∧
    ∀ u ∈ db .used_refresh_token, u ∈ h.world.db .used_refresh_token
  have hrun : J (h.next srv s).world.db := by
    refine Step.run_db_invariant ?_ ⟨hs, fun u hu => hu⟩
    intro w db hp _ hJ
    obtain ⟨hdb, hsub⟩ := hJ
    -- only a refresh adds a digest to the spent ones
    have hsub' : ∀ u ∈ schema.effect (schema.resolve db w) db .used_refresh_token,
        u ∈ db .used_refresh_token := by
      intro u hu
      rcases Schema.mem_effect_resolve (rigid (by decide)) hu with hold | rfl |
        ⟨id, p, _, _, _, _, _⟩
      · exact hold
      · cases s with
        | ocr env document_id engine => exact hp.elim
        | request env req =>
          have href : req.route.refreshes = true := hp.2
          rw [hno env req rfl] at href
          cases href
      · exact p.elim
    refine ⟨?_, fun u hu => hsub u (hsub' u hu)⟩
    intro u hu r hr hdig
    cases s with
    | ocr env document_id engine =>
      rcases Schema.mem_effect_resolve (rigid (by decide)) hr with hold | rfl |
        ⟨id, p, r₀, _, rfl, _, _⟩
      · exact hdb u (hsub' u hu) r hold hdig
      · exact hp.elim
      · exact hp.elim
    | request env req =>
      -- and a token that is drawn has a digest that has not been spent
      have hunseen := hon.1.used_digests _ h.world_mem_worlds u (hsub u (hsub' u hu))
      rcases session_from hp hr with ⟨r₀, hr₀, hcarried, hsame | ⟨_, hnew⟩⟩ | ⟨_, _, _, hnew⟩
      · rw [hcarried.id]
        exact hdb u (hsub' u hu) r₀ hr₀ (hsame ▸ hdig)
      · exact absurd (hdig.symm.trans hnew) hunseen
      · exact absurd (hdig.symm.trans hnew) hunseen
  exact hrun.1

theorem Reaches.spentOnce {h : History Token} (hr : Reaches srv (Honest srv) History.start h) :
    SpentOnce h.world.db := by
  induction hr with
  | refl =>
    intro u hu
    cases hu
  | @step h s hr hon ih =>
    by_cases hno : ∀ env req, s = .request env req → req.route.refreshes = false
    · exact SpentOnce.other hon ih hno
    · -- the one route that rotates
      obtain ⟨env, ⟨credentials, route⟩, rfl, href⟩ : ∃ env req, s = .request env req ∧
          req.route.refreshes = true := by
        simpa using hno
      cases route <;> try cases href
      rename_i refresh_token
      rcases serve_refresh srv env credentials refresh_token h.world with ⟨us, hrot⟩ | ⟨_, heq⟩
      · exact SpentOnce.rotation ih hr.consistent hon.1 hrot
      · show SpentOnce (serve srv env ⟨credentials, .refresh refresh_token⟩ h.world).2.db
        rw [heq]
        exact ih

/-! ### The replay -/

/-- **Rollback.** A replay is refused, and the committed rows are as they were. -/
theorem serve_replay {w : Committed} {S : UserSession} {refresh_token : String} {env : Env}
    {credentials : Option Token} (ht : RotatedAway srv w.db S refresh_token) :
    (serve srv env ⟨credentials, .refresh refresh_token⟩ w).1.refuses ∧
      (serve srv env ⟨credentials, .refresh refresh_token⟩ w).2.db = w.db := by
  rcases serve_refresh srv env credentials refresh_token w with ⟨us, hrot⟩ | hrefused
  · obtain ⟨u, hu, _, hdig⟩ := ht
    exact absurd hdig (hrot.unused u hu)
  · exact hrefused

/-- A revoked session is dead, with all the digests it has had. -/
theorem dead_of_revoked {h : History Token} (hr : Reaches srv (Honest srv) History.start h)
    {S : UserSession} (hS : S ∈ h.world.db .user_session) (hrev : S.revoked_at.isSome = true) :
    Dead S.id (fun d => S.refresh_digest = d ∨ ∃ u ∈ h.world.db .used_refresh_token,
      UsedRefreshToken.session_id u = S.id ∧ UsedRefreshToken.digest u = d) h.world.db where
  revoked := by
    intro s hs hid
    rwa [hr.consistent.eq_of_pk hs hS hid]
  owned := by
    intro s hs hdig
    rcases hdig with heq | ⟨u, hu, hsid, heq⟩
    · have hclash : schema.clash .user_session s S = true := by
        simp [schema, row_clash, heq]
      rw [hr.consistent.eq_of_clash schema_regular hs hS hclash]
    · rw [← hsid]
      exact hr.spentOnce u hu s hs heq.symm

/-- **Replay.** After the replay of a rotated token has been answered, the session
    is durably ended, exactly when it was revoked already. -/
theorem replay_ends_session_iff {h : History Token}
    (hr : Reaches srv (Honest srv) History.start h) {S : UserSession}
    (hS : S ∈ h.world.db .user_session) {refresh_token : String}
    (ht : RotatedAway srv h.world.db S refresh_token) (env : Env) (credentials : Option Token) :
    (Revoked (h.next srv (.request env ⟨credentials, .refresh refresh_token⟩)).world.db S.id ∧
        RefusedForever srv h.world.db S
          (h.next srv (.request env ⟨credentials, .refresh refresh_token⟩))) ↔
      S.revoked_at.isSome = true := by
  -- the 401 rolls the revocation back, so the rows are those of before
  have hsame : (h.next srv (.request env ⟨credentials, .refresh refresh_token⟩)).world.db =
      h.world.db := (serve_replay ht).2
  constructor
  · intro hend
    rw [hsame] at hend
    exact hend.1.2 S hS rfl
  · intro hrev
    have hdead := dead_of_revoked hr hS hrev
    rw [hsame]
    refine ⟨⟨⟨S, hS, rfl⟩, hdead.revoked⟩, ?_⟩
    intro h' hr' env' req hpresents
    have hknown : Known S.id (fun d => S.refresh_digest = d ∨
        ∃ u ∈ h.world.db .used_refresh_token, UsedRefreshToken.session_id u = S.id ∧
          UsedRefreshToken.digest u = d)
        (h.next srv (.request env ⟨credentials, .refresh refresh_token⟩)) := by
      have hin : h.world ∈
          (h.next srv (.request env ⟨credentials, .refresh refresh_token⟩)).worlds :=
        List.mem_cons_of_mem _ List.mem_cons_self
      refine ⟨⟨h.world, hin, S, hS, rfl⟩, ?_⟩
      intro d hd
      rcases hd with rfl | ⟨u, hu, _, rfl⟩
      · exact ⟨h.world, hin, .inl ⟨S, hS, rfl⟩⟩
      · exact ⟨h.world, hin, .inr ⟨u, hu, rfl⟩⟩
    have hdead' := Dead.run hr' hknown (hsame.symm ▸ hdead)
    rcases hpresents with ⟨token, hroute, htok⟩ | haccess
    · obtain ⟨credentials', route⟩ := req
      dsimp only at hroute
      subst hroute
      exact hdead'.refuses_refresh htok
    · exact hdead'.refuses_access haccess

/-! ### A stolen token -/

/-- An account signs in and refreshes once: `"2"` is rotated away for `"3"`. -/
def rotated_once : History Payload :=
  ((History.start.next Sample.server
    (.request (Sample.env 1 (100 * second)) ⟨none, .register "a@x.org" "correct horse" none⟩)).next
    Sample.server (.request (Sample.env 2 (101 * second))
      ⟨none, .login "a@x.org" "correct horse"⟩)).next
    Sample.server (.request (Sample.env 3 (102 * second)) ⟨none, .refresh "2"⟩)

theorem reaches_rotated_once :
    Reaches Sample.server (Honest Sample.server) History.start rotated_once := by
  refine .step _ (.step _ (.step _ .refl ?_) ?_) ?_
  · exact Sample.honest_of_check (by decide) rfl rfl (by decide +kernel)
  · exact Sample.honest_of_check (by decide) rfl rfl (by decide +kernel)
  · exact Sample.honest_of_check (by decide) rfl rfl (by decide +kernel)

/-- The session of that run, as it stands. -/
def stolen_session : UserSession :=
  ⟨8192#128, 4096#128, hash_refresh_token Sample.server "3", refresh_expiry (101 * second), none,
    some (102 * second)⟩

/-- The replay of `"2"` is answered, and the session is not revoked. -/
theorem replay_leaves_session_live :
    Reaches Sample.server (Honest Sample.server) History.start rotated_once ∧
      stolen_session ∈ rotated_once.world.db .user_session ∧
      RotatedAway Sample.server rotated_once.world.db stolen_session "2" ∧
      ¬ (Revoked (rotated_once.next Sample.server
            (.request (Sample.env 4 (103 * second)) ⟨none, .refresh "2"⟩)).world.db
          stolen_session.id ∧
        RefusedForever Sample.server rotated_once.world.db stolen_session
          (rotated_once.next Sample.server
            (.request (Sample.env 4 (103 * second)) ⟨none, .refresh "2"⟩))) := by
  refine ⟨reaches_rotated_once, by decide +kernel,
    ⟨⟨12288#128, 8192#128, hash_refresh_token Sample.server "2"⟩, by decide +kernel, rfl,
      by decide +kernel⟩, ?_⟩
  intro hend
  have hmem : stolen_session ∈ (rotated_once.next Sample.server
      (.request (Sample.env 4 (103 * second)) ⟨none, .refresh "2"⟩)).world.db .user_session := by
    decide +kernel
  have hrev := hend.1.2 stolen_session hmem rfl
  cases hrev

/-- The same run, ended by its owner. -/
def signed_out : History Payload :=
  rotated_once.next Sample.server (.request (Sample.env 4 (103 * second))
    ⟨some (access_claims 4096#128 8192#128 (102 * second)), .logout⟩)

/-- After a logout the replay of `"2"` finds a session that is over for good. -/
theorem replay_after_logout :
    Revoked (signed_out.next Sample.server
        (.request (Sample.env 5 (104 * second)) ⟨none, .refresh "2"⟩)).world.db 8192#128 ∧
      RefusedForever Sample.server signed_out.world.db
        { stolen_session with revoked_at := some (103 * second) }
        (signed_out.next Sample.server
          (.request (Sample.env 5 (104 * second)) ⟨none, .refresh "2"⟩)) := by
  have hreach : Reaches Sample.server (Honest Sample.server) History.start signed_out :=
    .step _ reaches_rotated_once
      (Sample.honest_of_check (by decide) rfl rfl (by decide +kernel))
  have hS : { stolen_session with revoked_at := some (103 * second) } ∈
      signed_out.world.db .user_session := by
    decide +kernel
  have ht : RotatedAway Sample.server signed_out.world.db
      { stolen_session with revoked_at := some (103 * second) } "2" :=
    ⟨⟨12288#128, 8192#128, hash_refresh_token Sample.server "2"⟩, by decide +kernel, rfl,
      by decide +kernel⟩
  exact (replay_ends_session_iff hreach hS ht _ _).mpr rfl

end CounselReady
