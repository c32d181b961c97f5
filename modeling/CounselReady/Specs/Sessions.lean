import CounselReady.Rules

/-! # What One Statement Does to Sessions

    The statements a route may issue touch a session in four ways: they insert
    it, revoke it, give it another refresh digest, or delete the account it
    belongs to. Its id, its owner and its expiry never change.
-/

namespace CounselReady

open Relational Framework

variable {Token : Type} {srv : Server Token} {env : Env} {route : Route Token}
  {w : Write Row Patch Uuid} {db : Database}

/-- The same session, later: a revocation is for good. -/
structure Carried (r₀ r : UserSession) : Prop where
  id : r.id = r₀.id
  user_id : r.user_id = r₀.user_id
  expires_at : r.expires_at = r₀.expires_at
  revoked : r₀.revoked_at.isSome = true → r.revoked_at.isSome = true

theorem Carried.refl (r : UserSession) : Carried r r := ⟨rfl, rfl, rfl, fun h => h⟩

theorem Carried.trans {r₀ r₁ r₂ : UserSession} (h : Carried r₀ r₁) (h' : Carried r₁ r₂) :
    Carried r₀ r₂ where
  id := h'.id.trans h.id
  user_id := h'.user_id.trans h.user_id
  expires_at := h'.expires_at.trans h.expires_at
  revoked := fun hrev => h'.revoked (h.revoked hrev)

theorem carried_apply (p : SessionPatch) (r : UserSession) :
    Carried r (schema.apply .user_session p r) := by
  cases p with
  | revoke now => exact ⟨rfl, rfl, rfl, fun _ => rfl⟩
  | rotate digest now => exact ⟨rfl, rfl, rfl, fun h => h⟩

/-- **Inversion.** A session after a permitted statement is one from before, or the one a
    sign-in inserts. -/
theorem session_from {r : UserSession} (hp : permits srv env route (.write w))
    (hr : r ∈ schema.effect (schema.resolve db w) db .user_session) :
    (∃ r₀ ∈ db .user_session, Carried r₀ r ∧ (r.refresh_digest = UserSession.refresh_digest r₀ ∨
        route.refreshes = true ∧ r.refresh_digest = hash_refresh_token srv env.refresh_token)) ∨
      (w = .insert .user_session r ∧ route.signs_in = true ∧ r.id = env.uuid 0 ∧
        r.refresh_digest = hash_refresh_token srv env.refresh_token) := by
  rcases Schema.mem_effect_resolve (rigid (by decide)) hr with hold | rfl |
    ⟨id, p, r₀, hr₀, rfl, hid, rfl⟩
  · exact .inl ⟨r, hold, .refl r, .inl rfl⟩
  · exact .inr ⟨rfl, hp.2⟩
  · left
    cases p with
    | revoke now => exact ⟨r₀, hr₀, carried_apply _ r₀, .inl rfl⟩
    | rotate digest now => exact ⟨r₀, hr₀, carried_apply _ r₀, .inr hp⟩

/-- A table no foreign key points at loses its rows alone. -/
theorem session_survives_delete {t : Table} {id : Uuid} {r : UserSession}
    (ht : t ≠ .user_account ∧ t ≠ .user_session) (hr : r ∈ db .user_session) :
    r ∈ schema.effect (.remove (schema.doomed db t id)) db .user_session := by
  have hstay : (Table.user_session, r.id) ∉ schema.doomed db t id := by
    intro hgone
    obtain ⟨_, _, _, k, hk, _, j, _, hparent⟩ :=
      Schema.doomed_parent hgone (fun heq => ht.2 (Prod.mk.inj heq).1.symm)
    obtain rfl := List.mem_singleton.mp hk
    exact Schema.not_mem_doomed (Ne.symm ht.1) (fun k hk => by cases hk) hparent
  have hrigid : schema.Rigid .user_session := rigid (by decide)
  exact Schema.mem_effect_remove.mpr ⟨r, hr, hstay, hrigid _ r⟩

/-- Only the route that deletes the account takes a session away. -/
theorem session_stays {r₀ : UserSession} (hp : permits srv env route (.write w))
    (hroute : route.deletes_account = false) (hr₀ : r₀ ∈ db .user_session) :
    ∃ r ∈ schema.effect (schema.resolve db w) db .user_session, Carried r₀ r := by
  cases w with
  | insert t row =>
    refine ⟨r₀, ?_, .refl r₀⟩
    show r₀ ∈ schema.effect (.insert t row) db .user_session
    by_cases ht : t = .user_session
    · subst ht
      exact Schema.mem_effect_insert.mpr (.inl hr₀)
    · rwa [Schema.effect_insert_ne _ _ ht]
  | update t id p =>
    by_cases ht : t = .user_session
    · subst ht
      refine ⟨schema.patched .user_session id p r₀,
        Schema.mem_effect_update.mpr ⟨r₀, hr₀, rfl⟩, ?_⟩
      by_cases hid : UserSession.id r₀ = id
      · rw [Schema.patched_of_eq hid]
        exact carried_apply p r₀
      · rw [Schema.patched_of_ne hid]
        exact .refl r₀
    · refine ⟨r₀, ?_, .refl r₀⟩
      show r₀ ∈ schema.effect (.update t id p) db .user_session
      rwa [Schema.effect_update_ne _ _ _ ht]
  | delete t id =>
    refine ⟨r₀, session_survives_delete ?_ hr₀, .refl r₀⟩
    constructor
    · rintro rfl
      rw [show route.deletes_account = true from hp] at hroute
      cases hroute
    · rintro rfl
      exact hp

end CounselReady
