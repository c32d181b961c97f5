import CounselReady.Rules

/-! # Steps That Go Through

    The shared steps in the other direction. With rows that meet the constraints
    and a database that carries out its statements, a step is refused only when
    what it looks for is not there.
-/

namespace CounselReady

open Relational Framework Handler Prog

variable {Token : Type} {srv : Server Token} {env : Env} {s : Session} {β : Type}
  {Q : Except Exc β → Session → Prop}

/-! ### Statements -/

/-- A SELECT that can find one row only. -/
theorem wps_select_unique_bind {t : Table} {p : Row t → Bool} {f : Option (Row t) → Handler β}
    (hone : ((s.db t).filter p).length ≤ 1)
    (hnone : (∀ r ∈ s.db t, p r = false) → wps (f none) Q s)
    (hsome : ∀ r ∈ s.db t, p r = true → (s.db t).filter p = [r] → wps (f (some r)) Q s) :
    wps (select_one t p >>= f) Q s := by
  refine wps_bind (wps_select_one hnone hsome fun hmany => ?_)
  omega

/-- A statement the constraints admit, while no fault is pending. -/
theorem wps_execute_admitted {w : Write Row Patch Uuid} {Q : Except Exc Unit → Session → Prop}
    (hup : true ∉ s.faults) (hcheck : schema.check s.db w = none)
    (h : Q (.ok ()) { s with
      db := schema.effect (schema.resolve s.db w) s.db, faults := s.faults.tail }) :
    wps (execute .database w) Q s := by
  refine wp_execute_cases (fun hfault => ?_) (fun v hv => ?_) fun _ _ => h
  · exact absurd (List.mem_of_mem_head? hfault) hup
  · rw [hcheck] at hv
    cases hv

theorem wps_execute_admitted_bind {w : Write Row Patch Uuid} {f : Unit → Handler β}
    (hup : true ∉ s.faults) (hcheck : schema.check s.db w = none)
    (h : wps (f ()) Q { s with
      db := schema.effect (schema.resolve s.db w) s.db, faults := s.faults.tail }) :
    wps (execute .database w >>= f) Q s :=
  wps_bind (wps_execute_admitted hup hcheck h)

theorem up_tail {faults : List Bool} (hup : true ∉ faults) : true ∉ faults.tail :=
  fun h => hup (List.mem_of_mem_tail h)

/-- Deleting is never refused. -/
theorem wps_delete_all_admitted {t : Table} {ids : List Uuid} {Q : Except Exc Unit → Session → Prop}
    (hup : true ∉ s.faults) (h : ∀ s', true ∉ s'.faults → Q (.ok ()) s') :
    wps (delete_all t ids) Q s := by
  induction ids generalizing s with
  | nil => exact (wp_pure _).mpr (h s hup)
  | cons id ids ih =>
    exact wps_execute_admitted_bind hup rfl (ih (up_tail hup))

/-! ### The gate -/

theorem session_by_id {db : Database} (hc : schema.Consistent db) (id : Uuid) :
    ((db .user_session).filter (fun us : UserSession => us.id == id)).length ≤ 1 :=
  hc.select_one (t := .user_session) (p := fun us : UserSession => us.id == id)
    (fun _ hr => beq_iff_eq.mp hr)

theorem account_by_id {db : Database} (hc : schema.Consistent db) (id : Uuid) :
    ((db .user_account).filter (fun a : UserAccount => a.id == id)).length ≤ 1 :=
  hc.select_one (t := .user_account) (p := fun a : UserAccount => a.id == id)
    (fun _ hr => beq_iff_eq.mp hr)

/-- One credential, one account and one session. -/
theorem SignedIn.unique {credentials : Option Token} {db : Database} (hc : schema.Consistent db)
    {auth auth' : Authenticated} (h : SignedIn srv env credentials db auth)
    (h' : SignedIn srv env credentials db auth') : auth = auth' := by
  obtain ⟨token, htoken, claims, hclaims, huser, hsession⟩ := h.token
  obtain ⟨token', htoken', claims', hclaims', huser', hsession'⟩ := h'.token
  rw [htoken] at htoken'
  cases htoken'
  rw [hclaims] at hclaims'
  cases hclaims'
  have haccount : auth.account = auth'.account :=
    hc.eq_of_pk h.account h'.account (huser.symm.trans huser')
  obtain ⟨account, session_id⟩ := auth
  obtain ⟨account', session_id'⟩ := auth'
  cases haccount
  cases hsession.symm.trans hsession'
  rfl

/-- **The gate is exact.** Whoever it turns away is not signed in. -/
theorem wps_authenticated_exact {credentials : Option Token} {f : Authenticated → Handler β}
    (hc : schema.Consistent s.db)
    (hrefused : (∀ auth, ¬ SignedIn srv env credentials s.db auth) → Q (.error unauthenticated) s)
    (hok : ∀ auth, SignedIn srv env credentials s.db auth → wps (f auth) Q s) :
    wps (authenticated srv env credentials >>= f) Q s := by
  refine wps_bind ?_
  refine wps_some_or_bind (fun hnone => hrefused fun auth h => ?_) fun token htoken => ?_
  · obtain ⟨token, htoken, _⟩ := h.token
    rw [hnone] at htoken
    cases htoken
  -- whoever is signed in presents this token
  have htoken_of : ∀ auth, SignedIn srv env credentials s.db auth → ∃ claims,
      decode_access_token srv token env.now = some claims ∧
        claims.user_id = auth.account.id ∧ claims.session_id = auth.session_id := by
    intro auth h
    obtain ⟨token', htoken', hclaims⟩ := h.token
    rw [htoken] at htoken'
    cases htoken'
    exact hclaims
  refine wps_some_or_bind (fun hnone => hrefused fun auth h => ?_) fun claims hclaims => ?_
  · obtain ⟨claims, hclaims, _⟩ := htoken_of auth h
    rw [hnone] at hclaims
    cases hclaims
  have hclaims_of : ∀ auth, SignedIn srv env credentials s.db auth →
      claims.user_id = auth.account.id ∧ claims.session_id = auth.session_id := by
    intro auth h
    obtain ⟨claims', hclaims', hids⟩ := htoken_of auth h
    rw [hclaims] at hclaims'
    cases hclaims'
    exact hids
  refine wps_bind (wps_select_unique_bind (session_by_id hc claims.session_id)
    (fun hnone => (wp_pure _).mpr ?_) fun us hus hid _ => (wp_pure _).mpr ?_)
  · refine wps_require_bind (fun _ => hrefused fun auth h => ?_) (fun h => by cases h)
    obtain ⟨us, hus, hid, _⟩ := h.session
    have hother := hnone us hus
    simp [hid, (hclaims_of auth h).2] at hother
  refine wps_require_bind (fun hdead => hrefused fun auth h => ?_) fun hlive => ?_
  · obtain ⟨us', hus', hid', hactive⟩ := h.session
    have hsame : us = us' := hc.eq_of_pk hus hus'
      ((beq_iff_eq.mp hid).trans ((hclaims_of auth h).2.trans hid'.symm))
    subst hsame
    simp [hactive] at hdead
  refine wps_select_unique_bind (account_by_id hc claims.user_id) (fun hnone => ?_)
    fun account hacc hid' _ => ?_
  · refine wps_some_or_bind (fun _ => hrefused fun auth h => ?_) (fun _ h => by cases h)
    have hother := hnone auth.account h.account
    simp [(hclaims_of auth h).1] at hother
  refine wps_some_or_bind (fun h => by cases h) fun a ha => ?_
  cases ha
  refine wps_require_bind (fun hinactive => hrefused fun auth h => ?_) fun hactive => ?_
  · have hsame : account = auth.account := hc.eq_of_pk hacc h.account
      ((beq_iff_eq.mp hid').trans (hclaims_of auth h).1)
    rw [hsame, h.active] at hinactive
    cases hinactive
  refine (wp_pure _).mpr (hok ⟨account, claims.session_id⟩ ⟨?_, ?_, hacc, hactive⟩)
  · exact ⟨token, htoken, claims, hclaims, (beq_iff_eq.mp hid').symm, rfl⟩
  · exact ⟨us, hus, beq_iff_eq.mp hid, by simpa using hlive⟩

theorem wps_current_user_exact {credentials : Option Token} {f : UserAccount → Handler β}
    (hc : schema.Consistent s.db)
    (hrefused : (∀ auth, ¬ SignedIn srv env credentials s.db auth) → Q (.error unauthenticated) s)
    (hok : ∀ auth, SignedIn srv env credentials s.db auth → wps (f auth.account) Q s) :
    wps (current_user srv env credentials >>= f) Q s := by
  refine wps_bind ?_
  exact wps_authenticated_exact hc hrefused fun auth hauth => (wp_pure _).mpr (hok auth hauth)

/-- Whoever is signed in is let through. -/
theorem wps_current_user_admitted {credentials : Option Token} {f : UserAccount → Handler β}
    (hc : schema.Consistent s.db) {auth : Authenticated}
    (hauth : SignedIn srv env credentials s.db auth) (h : wps (f auth.account) Q s) :
    wps (current_user srv env credentials >>= f) Q s := by
  refine wps_current_user_exact hc (fun hnot => absurd hauth (hnot auth)) fun auth' hauth' => ?_
  rw [hauth'.unique hc hauth]
  exact h

/-- The owner of a case reaches it. -/
theorem wps_owned_case_admitted {account : UserAccount} {f : Case → Handler β} {c : Case}
    (hc : schema.Consistent s.db) (hmem : c ∈ s.db .case_) (howner : c.owner_id = account.id)
    (h : wps (f c) Q s) : wps (owned_case account c.id >>= f) Q s := by
  have hone : ((s.db .case_).filter
      (fun c' : Case => c'.id == c.id && c'.owner_id == account.id)).length ≤ 1 :=
    hc.select_one (t := .case_)
      (p := fun c' : Case => c'.id == c.id && c'.owner_id == account.id)
      (fun _ hr => beq_iff_eq.mp (Bool.and_eq_true_iff.mp hr).1)
  refine wps_bind (wps_select_unique_bind hone (fun hnone => ?_) fun r hr hp _ => ?_)
  · have hother := hnone c hmem
    simp [howner] at hother
  · have hid : Case.id r = c.id := by
      simp only [Bool.and_eq_true, beq_iff_eq] at hp
      exact hp.1
    have hsame : r = c := hc.eq_of_pk hr hmem hid
    subst hsame
    exact wps_some_or.mpr ⟨fun a ha => by cases ha; exact h, fun h => by cases h⟩

/-! ### Sign-in -/

/-- The two rows of a sign-in are admitted: fresh ids, a fresh digest of the right length,
    and an account they can point at. -/
theorem wps_issue_admitted {email : String} {account : UserAccount}
    {Q : Except Exc (IssuedSession Token) → Session → Prop} (hup : true ∉ s.faults)
    (hacc : ∃ a ∈ s.db .user_account, UserAccount.id a = account.id)
    (hemail : varchar 320 email = true)
    (hids : ∀ t, ∀ r ∈ s.db t, ∀ i, row_pk t r ≠ env.uuid i)
    (hlength : (hash_refresh_token srv env.refresh_token).length ≤ 64)
    (hdigest : ∀ us ∈ s.db .user_session,
      UserSession.refresh_digest us ≠ hash_refresh_token srv env.refresh_token)
    (h : ∀ issued s', Q (.ok issued) s') :
    wps (complete_login srv env email account) Q s := by
  obtain ⟨holder, hholder, hid⟩ := hacc
  have hsession : schema.check s.db (.insert .user_session
      ⟨env.uuid 0, account.id, hash_refresh_token srv env.refresh_token, refresh_expiry env.now,
        none, some env.now⟩) = none := by
    refine Schema.check_insert_of ?_ (fun r hr => ⟨hids .user_session r hr 0, ?_⟩) ?_
    · simp [schema, row_fits, columns, varchar, hlength]
    · simp [schema, row_clash, hdigest r hr]
    · refine Schema.anchored_iff.mpr fun k hk j hj => ?_
      obtain rfl := List.mem_singleton.mp hk
      obtain rfl := Option.some.inj hj
      exact ⟨holder, hholder, hid⟩
  have hkeep : ∀ {t : Table}, .user_session ≠ t → schema.effect (schema.resolve s.db
      (.insert .user_session ⟨env.uuid 0, account.id, hash_refresh_token srv env.refresh_token,
        refresh_expiry env.now, none, some env.now⟩)) s.db t = s.db t :=
    fun hne => Schema.effect_insert_ne _ _ hne
  refine wps_bind (wps_execute_admitted_bind hup hsession ?_)
  refine wps_bind (wps_bind (wp_perform_ext.mpr ((wp_pure _).mpr ((wp_pure _).mpr ?_))))
  refine wps_execute_admitted_bind (up_tail hup) ?_ ((wp_pure _).mpr (h _ _))
  refine Schema.check_insert_of ?_ (fun r hr => ⟨?_, rfl⟩) ?_
  · simp [schema, row_fits, columns, hemail]
  · have hold : r ∈ s.db .auth_event := by
      rw [← hkeep (t := .auth_event) (by decide)]
      exact hr
    exact hids .auth_event r hold 1
  · refine Schema.anchored_iff.mpr fun k hk j hj => ?_
    obtain rfl := List.mem_singleton.mp hk
    obtain rfl := Option.some.inj hj
    have hthere : holder ∈ schema.effect (schema.resolve s.db (.insert .user_session
        ⟨env.uuid 0, account.id, hash_refresh_token srv env.refresh_token, refresh_expiry env.now,
          none, some env.now⟩)) s.db .user_account := by
      rw [hkeep (by decide)]
      exact hholder
    exact ⟨holder, hthere, hid⟩

/-- The address of an account that is there fits the audit row's column. -/
theorem email_fits {db : Database} (hf : schema.Fitting db) {account : UserAccount}
    (hacc : account ∈ db .user_account) : varchar 320 account.email = true := by
  have hfits : row_fits .user_account account = none := hf .user_account account hacc
  have hlengths := (columns_none.mp hfits).1
  rw [Bool.and_eq_true, Bool.and_eq_true] at hlengths
  exact hlengths.1.1

theorem wps_complete_login_admitted {account : UserAccount}
    {Q : Except Exc (IssuedSession Token) → Session → Prop}
    (hf : schema.Fitting s.db) (hup : true ∉ s.faults) (hacc : account ∈ s.db .user_account)
    (hids : ∀ t, ∀ r ∈ s.db t, ∀ i, row_pk t r ≠ env.uuid i)
    (hlength : (hash_refresh_token srv env.refresh_token).length ≤ 64)
    (hdigest : ∀ us ∈ s.db .user_session,
      UserSession.refresh_digest us ≠ hash_refresh_token srv env.refresh_token)
    (h : ∀ issued s', Q (.ok issued) s') :
    wps (complete_mfa_login srv env account) Q s :=
  wps_issue_admitted hup ⟨account, hacc, rfl⟩ (email_fits hf hacc) hids hlength hdigest h

/-! ### Refresh -/

/-- The digest of a refresh token is indexed. -/
theorem one_session_by_digest {db : Database} (hc : schema.Consistent db) (digest : String) :
    ((db .user_session).filter
      (fun us : UserSession => us.refresh_digest == digest)).length ≤ 1 := by
  refine hc.select_indexed fun (a b : Row .user_session) ha hb => ?_
  have hsame : UserSession.refresh_digest a = UserSession.refresh_digest b :=
    (eq_of_beq ha).trans (eq_of_beq hb).symm
  exact beq_iff_eq.mpr hsame

/-- A refresh is admitted when the token is current and not used, its session live and the
    account active, and what it draws is new. -/
theorem wps_refresh_session_admitted {refresh_token : String} {us : UserSession}
    {account : UserAccount} {Q : Except Exc (IssuedSession Token) → Session → Prop}
    (hc : schema.Consistent s.db) (hup : true ∉ s.faults) (hus : us ∈ s.db .user_session)
    (hdigest : us.refresh_digest = hash_refresh_token srv refresh_token)
    (hlive : us.is_active env.now = true) (hacc : account ∈ s.db .user_account)
    (howner : account.id = us.user_id) (hactive : account.active = true)
    (hunused : ∀ u ∈ s.db .used_refresh_token,
      UsedRefreshToken.digest u ≠ hash_refresh_token srv refresh_token)
    (hids : ∀ u ∈ s.db .used_refresh_token, UsedRefreshToken.id u ≠ env.uuid 0)
    (hlength : ∀ token, (hash_refresh_token srv token).length ≤ 64)
    (hnew : ∀ q ∈ s.db .user_session,
      UserSession.refresh_digest q ≠ hash_refresh_token srv env.refresh_token)
    (h : ∀ issued s', Rotation srv env refresh_token s.db us s'.db → issued.session_id = us.id →
      issued.refresh_token = env.refresh_token → Q (.ok issued) s') :
    wps (refresh_session srv env refresh_token) Q s := by
  have hinsert : schema.check s.db (.insert .used_refresh_token
      ⟨env.uuid 0, us.id, hash_refresh_token srv refresh_token⟩) = none := by
    refine Schema.check_insert_of ?_ (fun u hu => ⟨hids u hu, ?_⟩) ?_
    · simp [schema, row_fits, columns, varchar, hlength]
    · simp [schema, row_clash, hunused u hu]
    · refine Schema.anchored_iff.mpr fun k hk j hj => ?_
      obtain rfl := List.mem_singleton.mp hk
      obtain rfl := Option.some.inj hj
      exact ⟨us, hus, rfl⟩
  -- the insert leaves the sessions alone
  have hsame : schema.effect (schema.resolve s.db (.insert .used_refresh_token
      ⟨env.uuid 0, us.id, hash_refresh_token srv refresh_token⟩)) s.db .user_session =
        s.db .user_session := Schema.effect_insert_ne _ _ (by decide)
  have hupdate : schema.check (schema.effect (schema.resolve s.db (.insert .used_refresh_token
      ⟨env.uuid 0, us.id, hash_refresh_token srv refresh_token⟩)) s.db)
      (.update .user_session us.id
        (.rotate (hash_refresh_token srv env.refresh_token) env.now)) = none := by
    have hc₁ := Schema.consistent_admitted schema_regular hc hinsert
    refine (Schema.check_update_apart hc₁ (r := us) (by rwa [hsame]) fun q hq _ => ?_).trans ?_
    · rw [hsame] at hq
      exact beq_eq_false_iff_ne.mpr (hnew q hq)
    · simp [schema, row_fits, columns, varchar, row_apply, SessionPatch.apply, hlength]
  refine wps_select_unique_bind ?_ (fun _ => ?_) fun u hu hp _ => ?_
  · rw [List.filter_eq_nil_iff.mpr fun u hu hp => hunused u hu (eq_of_beq hp)]
    exact Nat.zero_le 1
  · refine wps_select_unique_bind (one_session_by_digest hc _) (fun hnone => ?_)
      fun us' hus' hp _ => ?_
    · exact absurd (hnone us hus) (by simp [hdigest])
    obtain rfl : us' = us := by
      have hdigests : UserSession.refresh_digest us' = us.refresh_digest :=
        (eq_of_beq hp).trans hdigest.symm
      exact hc.eq_of_clash schema_regular hus' hus (beq_iff_eq.mpr hdigests)
    refine wps_some_or_bind (fun hnone => by cases hnone) fun us hsome => ?_
    obtain rfl := Option.some.inj hsome
    refine wps_require_bind (fun hdead => ?_) fun _ => ?_
    · rw [hlive] at hdead
      cases hdead
    refine wps_select_unique_bind ?_ (fun hnone => ?_) fun account' hacc' hp' _ => ?_
    · have hpk : ∀ a : Row .user_account, (UserAccount.id a == us'.user_id) = true →
          schema.pk .user_account a = us'.user_id := fun _ ha => eq_of_beq ha
      exact hc.select_one hpk
    · exact absurd (hnone account hacc) (by simp [howner])
    obtain rfl : account' = account := by
      have hids' : UserAccount.id account' = us'.user_id := eq_of_beq hp'
      exact hc.eq_of_pk hacc' hacc (hids'.trans howner.symm)
    refine wps_some_or_bind (fun hnone => by cases hnone) fun account hsome' => ?_
    obtain rfl := Option.some.inj hsome'
    refine wps_require_bind (fun hidle => ?_) fun _ => ?_
    · rw [hactive] at hidle
      cases hidle
    refine wps_execute_admitted_bind hup hinsert ?_
    refine wps_execute_admitted_bind (up_tail hup) hupdate ?_
    refine wps_bind (wps_bind (wp_perform_ext.mpr ((wp_pure _).mpr ((wp_pure _).mpr ?_))))
    exact h _ _ ⟨hus, hdigest, hlive, hunused, rfl⟩ rfl rfl
  · exact absurd (eq_of_beq hp) (hunused u hu)

end CounselReady
