import CounselReady.Guarantees.RefreshReplay

/-! # Signing Out Twice

    To revoke a session that is revoked already is no error. But a logout is let in by
    the very session that it ends, so the second one never comes as far as that.

    A logout has succeeded when it is answered 204 and committed.

    * `logout_revokes`: a logout that succeeds ends the session of its token.
    * `serve_logout_dead`: a token of a dead session is not let in.
    * `logout_never_repeats`: so no logout succeeds twice, in any run.
-/

namespace CounselReady

open Relational Framework Handler Prog

variable {Token : Type} {srv : Server Token}

/-- A logout succeeds, and no session is touched. -/
def LogoutRepeats (srv : Server Token) (env : Env) (token : Token) (w : Committed) : Prop :=
  (serve srv env ⟨some token, .logout⟩ w).1 = .success 204 .empty ∧
    (serve srv env ⟨some token, .logout⟩ w).2.db .user_session = w.db .user_session

/-! ### One logout -/

section logout
variable {env : Env} {token : Token} {claims : AccessTokenClaims} {w : Committed}

theorem revoked_by_update {db : Database} {id : Uuid} {now : Nat} {s : UserSession}
    (hs : s ∈ schema.effect (.update .user_session id (.revoke now)) db .user_session)
    (hid : s.id = id) : s.revoked_at.isSome = true := by
  obtain ⟨s₀, hs₀, rfl⟩ := Schema.mem_effect_update.mp hs
  by_cases hsame : UserSession.id s₀ = id
  · rw [Schema.patched_of_eq hsame]
    rfl
  · rw [Schema.patched_of_ne hsame] at hid
    exact absurd hid hsame

/-- **Success.** The token named a session, and no session of that id is live any more. -/
theorem logout_revokes (hclaims : decode_access_token srv token env.now = some claims)
    (hok : (serve srv env ⟨some token, .logout⟩ w).1 = .success 204 .empty) :
    (∃ us ∈ w.db .user_session, UserSession.id us = claims.session_id) ∧
      ∀ s ∈ (serve srv env ⟨some token, .logout⟩ w).2.db .user_session,
        UserSession.id s = claims.session_id → s.revoked_at.isSome = true := by
  let P : Response Token → Committed → Prop := fun resp w' => resp = .success 204 .empty →
    (∃ us ∈ w.db .user_session, UserSession.id us = claims.session_id) ∧
      ∀ s ∈ w'.db .user_session, UserSession.id s = claims.session_id → s.revoked_at.isSome = true
  have herr : ∀ e w', P (answer .logout (.error e)) w' := by
    intro e w' heq
    have hfailed := @succeeded_error Token .logout e
    rw [heq] at hfailed
    cases hfailed
  have hP : P (serve srv env ⟨some token, .logout⟩ w).1
      (serve srv env ⟨some token, .logout⟩ w).2 := by
    refine serve_wps (wps_authenticated_bind (fun e => herr e _) fun auth hauth => ?_)
    obtain ⟨token', htoken, claims', hclaims', _, hsession⟩ := hauth.token
    cases htoken
    rw [hclaims] at hclaims'
    cases hclaims'
    obtain ⟨us, hus, husid, _⟩ := hauth.session
    have hknown : ∃ us ∈ w.db .user_session, UserSession.id us = claims.session_id :=
      ⟨us, hus, husid.trans hsession.symm⟩
    refine wps_bind (wps_select_one_bind (herr _ _) (fun hnone => ?_) fun r hr hid hone => ?_)
    · -- the session was found a moment ago
      have hmiss := hnone us hus
      rw [husid, beq_self_eq_true] at hmiss
      cases hmiss
    · have hrid : UserSession.id r = claims.session_id :=
        (beq_iff_eq.mp hid).trans hsession.symm
      refine (wp_ite _ _).mpr ⟨fun _ => ?_, fun hover => (wp_pure _).mpr ?_⟩
      · refine wps_execute (fun v => herr _ _) fun _ => ?_
        refine (wp_pure _).mpr ⟨fun _ _ => ⟨hknown, fun s hs hsid => ?_⟩, fun _ => herr _ _⟩
        exact revoked_by_update hs (hsid.trans hrid.symm)
      · -- revoked already: it is the only row of that id
        refine (wp_pure _).mpr ⟨fun _ _ => ⟨hknown, fun s hs hsid => ?_⟩, fun _ => herr _ _⟩
        have hmem : s ∈ (w.db .user_session).filter
            (fun s : UserSession => s.id == auth.session_id) :=
          List.mem_filter.mpr ⟨hs, beq_iff_eq.mpr (hsid.trans hsession)⟩
        have honly := hone
        rw [Committed.begin_db] at honly
        rw [honly] at hmem
        obtain rfl := List.mem_singleton.mp hmem
        exact Option.isSome_iff_ne_none.mpr (by simpa using hover)
  exact hP hok

/-- **Refusal.** A token of a session that is over is not let in, and nothing changes. -/
theorem serve_logout_dead (hc : schema.Consistent w.db)
    (hclaims : decode_access_token srv token env.now = some claims)
    (hdead : ∀ s ∈ w.db .user_session, UserSession.id s = claims.session_id →
      s.revoked_at.isSome = true) :
    (serve srv env ⟨some token, .logout⟩ w).1 =
        .refused ⟨401, .text "Not authenticated", [("WWW-Authenticate", "Bearer")]⟩ ∧
      (serve srv env ⟨some token, .logout⟩ w).2.db = w.db := by
  let P : Response Token → Committed → Prop := fun resp w' =>
    resp = .refused ⟨401, .text "Not authenticated", [("WWW-Authenticate", "Bearer")]⟩ ∧
      w'.db = w.db
  have hP : P (serve srv env ⟨some token, .logout⟩ w).1
      (serve srv env ⟨some token, .logout⟩ w).2 := by
    refine serve_wps (wps_bind ?_)
    refine wps_some_or_bind (fun h => by cases h) fun token' htoken => ?_
    cases htoken
    refine wps_some_or_bind (fun h => ?_) fun claims' hclaims' => ?_
    · rw [hclaims] at h
      cases h
    rw [hclaims] at hclaims'
    cases hclaims'
    have hone := hc.select_one (t := .user_session)
      (p := fun s : UserSession => s.id == claims.session_id) fun r hr => beq_iff_eq.mp hr
    refine wps_bind (wps_bind (wps_select_one (fun _ => ?_) (fun r hr hid _ => ?_) fun hmany => ?_))
    · exact (wp_pure _).mpr (wps_require_bind (fun _ => ⟨rfl, rfl⟩) fun h => by cases h)
    · refine (wp_pure _).mpr (wps_require_bind (fun _ => ⟨rfl, rfl⟩) fun hlive => ?_)
      have hrevoked := hdead r hr (beq_iff_eq.mp hid)
      have hactive : UserSession.is_active r env.now = true := by simpa using hlive
      simp only [UserSession.is_active, Bool.and_eq_true, Option.isNone_iff_eq_none] at hactive
      rw [hactive.1] at hrevoked
      cases hrevoked
    · exact absurd hone (Nat.not_le.mpr hmany)
  exact hP

end logout

/-! ### The retry -/

/-- **No second logout.** In every run: once a logout with a token is committed, then
    after any further steps a logout with the same token, not yet expired, is refused as
    not authenticated. -/
theorem logout_never_repeats {h h' : History Token}
    (hr : Reaches srv (Honest srv) History.start h) {env env' : Env} {token : Token}
    {claims : AccessTokenClaims}
    (hon : Honest srv h (.request env ⟨some token, .logout⟩))
    (hclaims : decode_access_token srv token env.now = some claims)
    (hfirst : (serve srv env ⟨some token, .logout⟩ h.world).1 = .success 204 .empty)
    (hbetween : Reaches srv (Honest srv) (h.next srv (.request env ⟨some token, .logout⟩)) h')
    (hclaims' : decode_access_token srv token env'.now = some claims) :
    ¬ LogoutRepeats srv env' token h'.world ∧
      (serve srv env' ⟨some token, .logout⟩ h'.world).1 =
        .refused ⟨401, .text "Not authenticated", [("WWW-Authenticate", "Bearer")]⟩ ∧
      (serve srv env' ⟨some token, .logout⟩ h'.world).2.db = h'.world.db := by
  obtain ⟨⟨us, hus, husid⟩, hrevoked⟩ := logout_revokes hclaims hfirst
  have hreach : Reaches srv (Honest srv) History.start
      (h.next srv (.request env ⟨some token, .logout⟩)) := .step _ hr hon
  -- no digest is of interest here: only the session itself
  have hknown : Known claims.session_id (fun _ => False)
      (h.next srv (.request env ⟨some token, .logout⟩)) :=
    ⟨⟨h.world, List.mem_cons_of_mem _ List.mem_cons_self, us, hus, husid⟩, fun _ h => h.elim⟩
  have hdead : Dead claims.session_id (fun _ => False)
      (h.next srv (.request env ⟨some token, .logout⟩)).world.db :=
    ⟨hrevoked, fun _ _ h => h.elim⟩
  have hover := Dead.run hbetween hknown hdead
  obtain ⟨hrefused, hsame⟩ := serve_logout_dead (hreach.trans hbetween).consistent hclaims'
    hover.revoked
  refine ⟨fun hrepeat => ?_, hrefused, hsame⟩
  have hsucceeds := hrepeat.1
  rw [hrefused] at hsucceeds
  cases hsucceeds

/-- A client that has not seen the answer asks again, and is told that it is not signed in. -/
theorem logout_retry_refused :
    Reaches Sample.server (Honest Sample.server) History.start signed_out ∧
      decode_access_token Sample.server (access_claims 4096#128 8192#128 (102 * second))
        (104 * second) = some ⟨4096#128, 8192#128, (102 + 15 * 60) * second⟩ ∧
      (serve Sample.server (Sample.env 4 (103 * second))
        ⟨some (access_claims 4096#128 8192#128 (102 * second)), .logout⟩ rotated_once.world).1 =
          .success 204 .empty ∧
      ¬ LogoutRepeats Sample.server (Sample.env 5 (104 * second))
        (access_claims 4096#128 8192#128 (102 * second)) signed_out.world := by
  have hreach : Reaches Sample.server (Honest Sample.server) History.start signed_out :=
    .step _ reaches_rotated_once
      (Sample.honest_of_check (by decide) rfl rfl (by decide +kernel))
  refine ⟨hreach, by decide +kernel, by decide +kernel, fun hrepeat => ?_⟩
  have hrefused : (serve Sample.server (Sample.env 5 (104 * second))
      ⟨some (access_claims 4096#128 8192#128 (102 * second)), .logout⟩ signed_out.world).1.status =
        401 := by decide +kernel
  rw [hrepeat.1] at hrefused
  cases hrefused

/-- The same retry, as the run it is part of. -/
theorem signed_out_stays_out :
    (serve Sample.server (Sample.env 5 (104 * second))
      ⟨some (access_claims 4096#128 8192#128 (102 * second)), .logout⟩ signed_out.world).1 =
        .refused ⟨401, .text "Not authenticated", [("WWW-Authenticate", "Bearer")]⟩ := by
  have hon : Honest Sample.server rotated_once (.request (Sample.env 4 (103 * second))
      ⟨some (access_claims 4096#128 8192#128 (102 * second)), .logout⟩) :=
    Sample.honest_of_check (by decide) rfl rfl (by decide +kernel)
  have hclaims : ∀ now, now = 103 * second ∨ now = 104 * second →
      decode_access_token Sample.server (access_claims 4096#128 8192#128 (102 * second)) now =
        some ⟨4096#128, 8192#128, (102 + 15 * 60) * second⟩ := by
    rintro now (rfl | rfl)
    · decide +kernel
    · decide +kernel
  have hfirst : (serve Sample.server (Sample.env 4 (103 * second))
      ⟨some (access_claims 4096#128 8192#128 (102 * second)), .logout⟩ rotated_once.world).1 =
        .success 204 .empty := by decide +kernel
  exact (logout_never_repeats reaches_rotated_once hon (hclaims _ (.inl rfl)) hfirst .refl
    (hclaims _ (.inr rfl) : decode_access_token _ _ (Sample.env 5 (104 * second)).now = _)).2.1

end CounselReady
