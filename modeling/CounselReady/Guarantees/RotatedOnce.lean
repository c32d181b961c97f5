import CounselReady.Guarantees.ErasedBytes
import CounselReady.Guarantees.RevokedSessions

/-! # One Exchange for a Refresh Token

    Two refreshes can both find a token unused and its session by the digest. What lets
    one of them through only is the unique index on the used digests: the one that
    commits second finds its own insert there, as long as its session is there.

    * `Exchanged`: what a refresh has found and written when it returns.
    * `last_issued`, `session_of_digest`: where the digest of a session comes from, and
      that it is never shown by another one.
    * `spent_by`, `presented_once`: what is used up stays used, so that of the committed
      refreshes no two have presented the same digest.
    * `accepted_iff`: which token a session is refreshed with.
-/

namespace CounselReady

open Relational Framework Handler Prog

variable {Token : Type} {srv : Server Token}

/-! ### Drawing and issuing -/

def Arrival.drawn_digest (srv : Server Token) (a : Arrival Token) : String :=
  hash_refresh_token srv a.env.refresh_token

/-- A request that begins draws an id that is new (`uuid4`), and a refresh token that is new,
    with a digest that tells it from those before. -/
def FreshDraws (srv : Server Token) (past : TrafficPast Token) (_ : Traffic Token)
    (move : Move (Arrival Token)) : Prop :=
  ∀ n a, move = .begin n a → ∀ b ∈ begun past,
    Arrival.drawn_id b ≠ a.drawn_id ∧ b.drawn_digest srv ≠ a.drawn_digest srv

/-- The request has issued a refresh token for the session. -/
def Issues (f : InFlight Token) (session_id : Uuid) : Prop :=
  (∃ r : UserSession, .insert .user_session r ∈ f.log ∧ r.id = session_id) ∨
    ∃ digest now, .update .user_session session_id (.rotate digest now) ∈ f.log

/-- A refresh that has returned: the session it found, committed with the digest presented,
    and the two statements it makes. -/
structure Exchanged (srv : Server Token) (past : TrafficPast Token) (f : InFlight Token)
    (refresh_token : String) (us : UserSession) : Prop where
  found : ∃ y ∈ past, us ∈ y.2.db .user_session
  digest : us.refresh_digest = hash_refresh_token srv refresh_token
  log : f.log = rotation srv f.job refresh_token us

section request
variable {past : TrafficPast Token} {s : Traffic Token} {f g : InFlight Token} {db' : Database}
  {refresh_token : String}

theorem Exchanged.mono {us : UserSession} (h : Exchanged srv past f refresh_token us)
    (x : Move (Arrival Token) × Traffic Token) : Exchanged srv (x :: past) f refresh_token us where
  found := by
    obtain ⟨y, hy, hus⟩ := h.found
    exact ⟨y, List.mem_cons_of_mem x hy, hus⟩
  digest := h.digest
  log := h.log

theorem refresh_done (hf : Genuine schema run_ext (Arrival.handler srv) past f)
    (hret : ∃ reply, f.rest = .ret reply) (hroute : f.job.req.route = .refresh refresh_token) :
    ∃ us, Exchanged srv past f refresh_token us := by
  obtain ⟨reply, hret⟩ := hret
  have hout := hf.traced.outline (refresh_trace hroute) hf.keyed
  rw [hret] at hout
  obtain ⟨us, ⟨later, p, htrace⟩, _, hwrites⟩ := hout
  obtain ⟨e, he, _, _, hrows⟩ := hf.first_select htrace fun x hx => by
    obtain rfl := List.mem_singleton.mp hx
    exact ⟨_, _, rfl, by decide⟩
  have hfound : us ∈ (e.rows .user_session).filter
      (by_digest (hash_refresh_token srv refresh_token)) := by
    rw [← hrows]
    exact List.mem_singleton_self us
  obtain ⟨hus, hdigest⟩ := List.mem_filter.mp hfound
  obtain ⟨y, hy, hsame⟩ := hf.dated e he
  exact ⟨us, ⟨y, hy, by rwa [hsame]⟩, eq_of_beq hdigest, hwrites⟩

theorem route_of_refreshes {route : Route Token} (h : route.refreshes = true) :
    ∃ refresh_token, route = .refresh refresh_token := by
  cases route <;> first | exact ⟨_, rfl⟩ | cases h

/-- **Inversion.** A sign-in issues a token for the session that it brings, a refresh for the
    one that it has found. -/
theorem issued_cases (hf : Genuine schema run_ext (Arrival.handler srv) past f)
    (hret : ∃ reply, f.rest = .ret reply) {session_id : Uuid} (h : Issues f session_id) :
    (f.job.req.route.signs_in = true ∧ session_id = f.job.drawn_id) ∨
      ∃ refresh_token us, Exchanged srv past f refresh_token us ∧ us.id = session_id := by
  rcases h with ⟨r, hw, rfl⟩ | ⟨digest, now, hw⟩
  · exact .inl ⟨(log_permitted hf hw).2.1, (log_permitted hf hw).2.2.1⟩
  · obtain ⟨refresh_token, hroute⟩ := route_of_refreshes (log_permitted hf hw).1
    obtain ⟨us, hdone⟩ := refresh_done hf hret hroute
    refine .inr ⟨refresh_token, us, hdone, ?_⟩
    rw [hdone.log] at hw
    rcases List.mem_cons.mp hw with heq | hw
    · cases heq
    · exact (updated_id (congrArg Op.write (List.mem_singleton.mp hw))).symm

/-- A request issues a token for one session at most. -/
theorem issues_one (hf : Genuine schema run_ext (Arrival.handler srv) past f)
    (hret : ∃ reply, f.rest = .ret reply) {i j : Uuid} (hi : Issues f i) (hj : Issues f j) :
    i = j := by
  have hnever : ∀ {refresh_token us}, f.job.req.route.signs_in = true →
      Exchanged srv past f refresh_token us → False := by
    intro refresh_token us hsigns hdone
    have hw : .insert .used_refresh_token ⟨f.job.drawn_id, us.id,
        hash_refresh_token srv refresh_token⟩ ∈ f.log := by
      rw [hdone.log]
      exact List.mem_cons_self
    have hrefreshes : f.job.req.route.refreshes = true := (log_permitted hf hw).2
    obtain ⟨_, hroute⟩ := route_of_refreshes hrefreshes
    rw [hroute] at hsigns
    cases hsigns
  rcases issued_cases hf hret hi with ⟨hsigns, rfl⟩ | ⟨_, us, hdone, rfl⟩
  · rcases issued_cases hf hret hj with ⟨_, rfl⟩ | ⟨_, us, hdone, _⟩
    · rfl
    · exact (hnever hsigns hdone).elim
  · rcases issued_cases hf hret hj with ⟨hsigns, _⟩ | ⟨_, us', hdone', rfl⟩
    · exact (hnever hsigns hdone).elim
    · have hlog := hdone.log.symm.trans hdone'.log
      unfold rotation at hlog
      have hsecond := (List.cons.inj (List.cons.inj hlog).2).1
      exact updated_id (congrArg Op.write hsecond)

/-! ### The digests after a commit -/

/-- A commit that issues nothing for a session leaves its digest. -/
theorem digest_kept (hredo : redo schema g.log s.db = some db') {r' : UserSession}
    (hr' : r' ∈ db' .user_session) (hnot : ¬ Issues g r'.id) :
    ∃ r ∈ s.db .user_session, Carried r r' ∧
      r'.refresh_digest = UserSession.refresh_digest r := by
  let J : Database → Prop := fun db => ∀ r' ∈ db .user_session, ¬ Issues g (UserSession.id r') →
    ∃ r ∈ s.db .user_session, Carried r r' ∧
      UserSession.refresh_digest r' = UserSession.refresh_digest r
  have hJ : J db' := by
    refine redo_invariant (J := J) hredo (fun r hr _ => ⟨r, hr, .refl r, rfl⟩) ?_
    intro w hw db _ hdb r' hr' hnot
    rcases Schema.mem_effect_resolve (rigid (by decide)) hr' with hold | rfl |
      ⟨id, patch, r₀, hr₀, rfl, hid, rfl⟩
    · exact hdb r' hold hnot
    · exact absurd (.inl ⟨r', hw, rfl⟩) hnot
    · have hcarried := carried_apply patch r₀
      have hsame : UserSession.id (schema.apply .user_session patch r₀) = UserSession.id r₀ :=
        hcarried.id
      rw [hsame] at hnot
      obtain ⟨r, hr, hbefore, hdigest⟩ := hdb r₀ hr₀ hnot
      cases patch with
      | revoke now => exact ⟨r, hr, hbefore.trans hcarried, hdigest⟩
      | rotate digest now =>
        obtain rfl : UserSession.id r₀ = id := hid
        exact absurd (.inr ⟨digest, now, hw⟩) hnot
  exact hJ r' hr' hnot

/-- A commit that issues a token for a session leaves it with the digest of that token. -/
theorem digest_issued (hg : Genuine schema run_ext (Arrival.handler srv) past g)
    (hredo : redo schema g.log s.db = some db') {r' : UserSession} (hr' : r' ∈ db' .user_session)
    (hissues : Issues g r'.id) : r'.refresh_digest = g.job.drawn_digest srv := by
  let J : Database → Prop := fun db => ∀ r ∈ db .user_session, UserSession.id r = r'.id →
    UserSession.refresh_digest r = g.job.drawn_digest srv
  -- the statement that issues it, and what comes after
  obtain ⟨w, hw, hfirst⟩ : ∃ w ∈ g.log, ∀ db, schema.check db w = none →
      J (schema.effect (schema.resolve db w) db) := by
    rcases hissues with ⟨r, hw, hid⟩ | ⟨digest, now, hw⟩
    · refine ⟨_, hw, fun db hchk q hq hqid => ?_⟩
      rcases Schema.mem_effect_insert.mp hq with hold | rfl
      · obtain ⟨_, hapart, _⟩ := Schema.check_insert hchk
        exact absurd (hqid.trans hid.symm) (hapart q hold).1
      · exact (log_permitted hg hw).2.2.2
    · refine ⟨_, hw, fun db _ q hq hqid => ?_⟩
      obtain ⟨q₀, _, rfl⟩ := Schema.mem_effect_update.mp hq
      have hself : UserSession.id q₀ = r'.id :=
        (schema.pk_patched .user_session r'.id (.rotate digest now) q₀).symm.trans hqid
      rw [Schema.patched_of_eq hself]
      exact (log_permitted hg hw).2
  obtain ⟨ws, ws', hlog⟩ := List.append_of_mem hw
  have hlater : ∀ w' ∈ ws', permits srv g.job.env g.job.req.route (.write w') := by
    intro w' hw'
    refine log_permitted hg ?_
    rw [hlog]
    exact List.mem_append_right _ (List.mem_cons_of_mem _ hw')
  rw [hlog] at hredo
  obtain ⟨db₁, _, hchk, hrest⟩ := redo_split hredo
  refine redo_invariant (J := J) hrest (hfirst db₁ hchk) ?_ r' hr' rfl
  intro w' hw' db _ hdb q hq hqid
  have hpermitted := hlater w' hw'
  rcases Schema.mem_effect_resolve (rigid (by decide)) hq with hold | rfl |
    ⟨id, patch, q₀, hq₀, rfl, _, rfl⟩
  · exact hdb q hold hqid
  · exact hpermitted.2.2.2
  · cases patch with
    | revoke now => exact hdb q₀ hq₀ hqid
    | rotate digest now => exact hpermitted.2

end request

/-! ### What is used stays used -/

/-- The digest has been rotated away from the session. -/
def SpentFor (db : Database) (session_id : Uuid) (digest : String) : Prop :=
  ∃ u ∈ db .used_refresh_token, UsedRefreshToken.session_id u = session_id ∧ u.digest = digest

section spent
variable {ext : Outside} {past : TrafficPast Token} {s : Traffic Token} {f g : InFlight Token}
  {db' : Database} {n : Nat}

/-- The two statements are carried out: the digest had not been used, its session was there,
    and now it is used. -/
theorem exchange_redone {refresh_token : String} {us : UserSession}
    (hdone : Exchanged srv past g refresh_token us) (hredo : redo schema g.log s.db = some db') :
    (∃ r ∈ s.db .user_session, UserSession.id r = us.id) ∧
      (∀ u ∈ s.db .used_refresh_token,
        UsedRefreshToken.digest u ≠ hash_refresh_token srv refresh_token) ∧
      SpentFor db' us.id (hash_refresh_token srv refresh_token) := by
  rw [hdone.log] at hredo
  obtain ⟨hinsert, hrest⟩ := redo_cons hredo
  obtain ⟨hupdate, hnil⟩ := redo_cons hrest
  obtain rfl := Option.some.inj hnil
  refine ⟨?_, fun u hu heq => ?_, ?_⟩
  · obtain ⟨r, hr, hpk⟩ := Schema.check_update hupdate
    rw [Schema.resolve, Schema.effect_insert_ne _ _ (by decide)] at hr
    exact ⟨r, hr, hpk⟩
  · obtain ⟨_, hnew, _⟩ := Schema.check_insert hinsert
    have hclash := (hnew u hu).2
    exact beq_eq_false_iff_ne.mp hclash heq
  · refine ⟨⟨g.job.drawn_id, us.id, hash_refresh_token srv refresh_token⟩, ?_, rfl, rfl⟩
    show _ ∈ schema.effect (.update .user_session _ _) _ .used_refresh_token
    rw [Schema.effect_update_ne _ _ _ (by decide)]
    exact Schema.mem_effect_insert.mpr (.inr rfl)

/-- A used digest goes with its session only. -/
theorem used_goes_with_session {db : Database} (hc : schema.Consistent db) {t : Table} {id : Uuid}
    (ht : t ≠ .used_refresh_token) {u : UsedRefreshToken} (hu : u ∈ db .used_refresh_token) :
    u ∈ schema.effect (.remove (schema.doomed db t id)) db .used_refresh_token ∨
      ∀ r ∈ schema.effect (.remove (schema.doomed db t id)) db .user_session,
        UserSession.id r ≠ u.session_id := by
  by_cases hgone : (Table.used_refresh_token, u.id) ∈ schema.doomed db t id
  · right
    obtain ⟨u₀, hu₀, hpk, k, hk, _, j, hcol, hparent⟩ :=
      Schema.doomed_parent hgone fun heq => ht (Prod.mk.inj heq).1.symm
    obtain rfl : u₀ = u := hc.eq_of_pk hu₀ hu hpk
    obtain rfl := List.mem_singleton.mp hk
    obtain rfl : UsedRefreshToken.session_id u₀ = j := Option.some.inj hcol
    intro r hr hid
    obtain ⟨r₀, _, hstays, hnulled⟩ := Schema.mem_effect_remove.mp hr
    have hrigid : schema.Rigid .user_session := rigid (by decide)
    obtain rfl : r₀ = r := (hrigid _ r₀).symm.trans hnulled
    have hpk : schema.pk .user_session r₀ = u₀.session_id := hid
    rw [hpk] at hstays
    exact hstays hparent
  · have hrigid : schema.Rigid .used_refresh_token := rigid (by decide)
    exact .inl (Schema.mem_effect_remove.mpr ⟨u, hu, hgone, hrigid _ u⟩)

/-- As long as its session is there, a used digest is. -/
theorem spent_kept (hr : Run (traffic srv) FreshIds (Traffic.start ext) past s)
    (hflies : s.running n = some g) (hredo : redo schema g.log s.db = some db')
    {session_id : Uuid} {digest : String} (h : SpentFor s.db session_id digest)
    {r' : UserSession} (hr' : r' ∈ db' .user_session) (hid : r'.id = session_id) :
    SpentFor db' session_id digest := by
  obtain ⟨u, hu, hsession, hdigest⟩ := h
  have hg := (run_genuine hr fun _ => rfl).1 n g hflies
  have hc := traffic_consistent hr
  -- its session is on record, so that no other request draws the id
  have hdrawn : g.job.drawn_id ≠ u.session_id := by
    obtain ⟨r, hr₀, hpk⟩ := hc.target hu
      (k := belongs .user_session UsedRefreshToken.session_id) List.mem_cons_self rfl
    have hid₀ : UserSession.id r = u.session_id := hpk
    obtain ⟨f, hf, hfid⟩ := sessions_drawn hr r hr₀
    have hapart : Framework.Apart Arrival.drawn_id past s :=
      run_apart hr (fun _ => rfl) fun past s n job hmay => hmay n job rfl
    rw [← hid₀, ← hfid]
    exact (hapart.landed n g hflies f hf).symm
  let J : Database → Prop := fun db => schema.Consistent db ∧ (u ∈ db .used_refresh_token ∨
    ∀ r ∈ db .user_session, UserSession.id r ≠ u.session_id)
  have hJ : J db' := by
    refine redo_invariant (J := J) hredo ⟨hc, .inl hu⟩ ?_
    rintro w hw db hchk ⟨hdb, hstays⟩
    refine ⟨Schema.consistent_admitted schema_regular hdb hchk, ?_⟩
    have hpermitted := log_permitted hg hw
    rcases hstays with hin | hgone
    · cases w with
      | insert t row =>
        left
        show u ∈ schema.effect (.insert t row) db .used_refresh_token
        by_cases ht : t = .used_refresh_token
        · subst ht
          exact Schema.mem_effect_insert.mpr (.inl hin)
        · rwa [Schema.effect_insert_ne _ _ ht]
      | update t id patch =>
        left
        show u ∈ schema.effect (.update t id patch) db .used_refresh_token
        have ht : t ≠ .used_refresh_token := by
          rintro rfl
          exact patch.elim
        rwa [Schema.effect_update_ne _ _ _ ht]
      | delete t id =>
        refine used_goes_with_session hdb ?_ hin
        rintro rfl
        exact hpermitted
    · right
      intro r hr₁ hid₁
      rcases session_from hpermitted hr₁ with ⟨r₀, hr₀, hcarried, _⟩ | ⟨_, _, hnew, _⟩
      · exact hgone r₀ hr₀ (hcarried.id.symm.trans hid₁)
      · exact hdrawn (hnew.symm.trans hid₁)
  rcases hJ.2 with hin | hgone
  · exact ⟨u, hin, hsession, hdigest⟩
  · exact absurd (hid.trans hsession.symm) (hgone r' hr')

end spent

/-! ### Along a run -/

section along
variable {ext : Outside} {past : TrafficPast Token} {s : Traffic Token} {f g : InFlight Token}
  {db' : Database} {n : Nat}

theorem FreshDraws.ids {move : Move (Arrival Token)} (h : FreshDraws srv past s move) :
    FreshIds past s move :=
  fun n a hmove b hb => (h n a hmove b hb).1

theorem digests_apart (hr : Run (traffic srv) (FreshDraws srv) (Traffic.start ext) past s) :
    Framework.Apart (Arrival.drawn_digest srv) past s :=
  run_apart hr (fun _ => rfl) fun _ _ n job hmay b hb => (hmay n job rfl b hb).2

/-- The last of the requests to commit a token for the session. -/
structure LastIssued (past : TrafficPast Token) (session_id : Uuid) (f : InFlight Token) :
    Prop where
  made : Issues f session_id
  last : ∃ later earlier, committed past = later ++ f :: earlier ∧
    ∀ g ∈ later, ¬ Issues g session_id

theorem LastIssued.mem {session_id : Uuid} (h : LastIssued past session_id f) :
    f ∈ committed past := by
  obtain ⟨later, earlier, hsplit, _⟩ := h.last
  rw [hsplit]
  exact List.mem_append_right _ List.mem_cons_self

/-- **The current digest** of a session is that of the token last issued for it. -/
theorem last_issued (hr : Run (traffic srv) (FreshDraws srv) (Traffic.start ext) past s) :
    ∀ r ∈ s.db .user_session, ∃ f, LastIssued past (UserSession.id r) f ∧
      r.refresh_digest = f.job.drawn_digest srv := by
  let I : TrafficPast Token → Traffic Token → Prop := fun past s =>
    ∀ r ∈ s.db .user_session, ∃ f, LastIssued past (UserSession.id r) f ∧
      UserSession.refresh_digest r = f.job.drawn_digest srv
  have hI : I past s := by
    refine hr.invariant (I := I) ?_ ?_
    · intro r hr
      cases hr
    · intro past s move s' hrun ih _ hmove r' hr'
      rcases hmove.commits past with ⟨hdb, hsame⟩ | ⟨n, g, _, rfl, hflies, _, hredo, hnew⟩
      · rw [hdb] at hr'
        obtain ⟨f, hlast, hdigest⟩ := ih r' hr'
        exact ⟨f, ⟨hlast.made, by rw [hsame]; exact hlast.last⟩, hdigest⟩
      · have hg := (run_genuine hrun fun _ => rfl).1 n g hflies
        by_cases hissues : Issues g r'.id
        · exact ⟨g, ⟨hissues, [], committed past, hnew, nofun⟩, digest_issued hg hredo hr' hissues⟩
        · -- as before, and one more commit that issues nothing for it
          obtain ⟨r, hr, hcarried, hdigest⟩ := digest_kept hredo hr' hissues
          obtain ⟨f, ⟨hmade, later, earlier, hsplit, hnone⟩, hdrawn⟩ := ih r hr
          rw [← hcarried.id] at hmade hnone
          refine ⟨f, ⟨hmade, g :: later, earlier, by rw [hnew, hsplit]; rfl, ?_⟩,
            hdigest.trans hdrawn⟩
          exact List.forall_mem_cons.mpr ⟨hissues, hnone⟩
  exact hI

/-- Whoever shows a digest, at any time of the run: a commit has drawn it for the session. -/
theorem drawn_for (hr : Run (traffic srv) (FreshDraws srv) (Traffic.start ext) past s)
    {x : Move (Arrival Token) × Traffic Token} (hx : x ∈ past ∨ x.2 = s) {r : UserSession}
    (hmem : r ∈ x.2.db .user_session) :
    ∃ f ∈ committed past, Issues f r.id ∧ r.refresh_digest = f.job.drawn_digest srv := by
  rcases hx with hx | rfl
  · obtain ⟨later, earlier, rfl⟩ := List.append_of_mem hx
    obtain ⟨move, s₁⟩ := x
    obtain ⟨f, hlast, hdigest⟩ := last_issued hr.split.1 r hmem
    exact ⟨f, committed_earlier hlast.mem, hlast.made, hdigest⟩
  · obtain ⟨f, hlast, hdigest⟩ := last_issued hr r hmem
    exact ⟨f, hlast.mem, hlast.made, hdigest⟩

/-- **One session for a digest**, whenever the two are looked at. -/
theorem session_of_digest (hr : Run (traffic srv) (FreshDraws srv) (Traffic.start ext) past s)
    {x y : Move (Arrival Token) × Traffic Token} (hx : x ∈ past ∨ x.2 = s)
    (hy : y ∈ past ∨ y.2 = s) {r q : UserSession} (hmem : r ∈ x.2.db .user_session)
    (hmem' : q ∈ y.2.db .user_session) (hsame : r.refresh_digest = q.refresh_digest) :
    r.id = q.id := by
  obtain ⟨f, hf, hissues, hdigest⟩ := drawn_for hr hx hmem
  obtain ⟨g, hg, hissues', hdigest'⟩ := drawn_for hr hy hmem'
  have hdrawn : f.job.drawn_digest srv = g.job.drawn_digest srv :=
    hdigest.symm.trans (hsame.trans hdigest')
  obtain rfl : f = g :=
    Schema.eq_of_pairwise (digests_apart hr).committed hf hg (fun hne => hne hdrawn)
      (fun hne => hne hdrawn.symm)
  obtain ⟨hgenuine, hret⟩ := (run_genuine hr fun _ => rfl).2 f hf
  exact issues_one hgenuine hret hissues hissues'

/-! ### The digests used up -/

/-- **Inversion.** A used digest after a commit was used before, or the commit exchanges it. -/
theorem used_from (hg : Genuine schema run_ext (Arrival.handler srv) past g)
    (hret : ∃ reply, g.rest = .ret reply) (hredo : redo schema g.log s.db = some db')
    {u : UsedRefreshToken} (hu : u ∈ db' .used_refresh_token) :
    u ∈ s.db .used_refresh_token ∨ ∃ refresh_token us, Exchanged srv past g refresh_token us ∧
      u.id = g.job.drawn_id ∧ u.digest = us.refresh_digest := by
  let J : Database → Prop := fun db => ∀ u ∈ db .used_refresh_token,
    u ∈ s.db .used_refresh_token ∨ .insert .used_refresh_token u ∈ g.log
  have hJ : J db' := by
    refine redo_invariant (J := J) hredo (fun u hu => .inl hu) ?_
    intro w hw db _ hdb u hu
    rcases Schema.mem_effect_resolve (rigid (by decide)) hu with hold | rfl | ⟨_, patch, _⟩
    · exact hdb u hold
    · exact .inr hw
    · exact patch.elim
  rcases hJ u hu with hold | hw
  · exact .inl hold
  · have hrefreshes : g.job.req.route.refreshes = true := (log_permitted hg hw).2
    obtain ⟨refresh_token, hroute⟩ := route_of_refreshes hrefreshes
    obtain ⟨us, hdone⟩ := refresh_done hg hret hroute
    rw [hdone.log] at hw
    rcases List.mem_cons.mp hw with heq | hw
    · cases heq
      exact .inr ⟨refresh_token, us, hdone, rfl, hdone.digest.symm⟩
    · cases List.mem_singleton.mp hw

/-- The row of a used digest: commits have drawn the digest and the id. -/
theorem used_drawn (hr : Run (traffic srv) (FreshDraws srv) (Traffic.start ext) past s) :
    ∀ u ∈ s.db .used_refresh_token,
      (∃ f ∈ committed past, UsedRefreshToken.digest u = f.job.drawn_digest srv) ∧
        ∃ f ∈ committed past, UsedRefreshToken.id u = f.job.drawn_id := by
  let I : TrafficPast Token → Traffic Token → Prop := fun past s =>
    ∀ u ∈ s.db .used_refresh_token,
      (∃ f ∈ committed past, UsedRefreshToken.digest u = f.job.drawn_digest srv) ∧
        ∃ f ∈ committed past, UsedRefreshToken.id u = f.job.drawn_id
  have hI : I past s := by
    refine hr.invariant (I := I) ?_ ?_
    · intro u hu
      cases hu
    · intro past s move s' hrun ih _ hmove u hu
      rcases hmove.commits past with ⟨hdb, hsame⟩ | ⟨n, g, reply, rfl, hflies, hret, hredo, hnew⟩
      · rw [hdb] at hu
        rw [hsame]
        exact ih u hu
      · rw [hnew]
        have hg := (run_genuine hrun fun _ => rfl).1 n g hflies
        rcases used_from hg ⟨reply, hret⟩ hredo hu with hold | ⟨_, us, hdone, hid, hdigest⟩
        · obtain ⟨⟨f, hf, hdrawn⟩, f', hf', hdrawn'⟩ := ih u hold
          exact ⟨⟨f, List.mem_cons_of_mem g hf, hdrawn⟩, f', List.mem_cons_of_mem g hf', hdrawn'⟩
        · -- the digest is that of the session it found, which another commit has drawn
          obtain ⟨y, hy, hus⟩ := hdone.found
          obtain ⟨f, hf, _, hdrawn⟩ := drawn_for hrun (.inl hy) hus
          exact ⟨⟨f, List.mem_cons_of_mem g hf, hdigest.trans hdrawn⟩, g, List.mem_cons_self, hid⟩
  exact hI

/-- **Used and current digests are apart.** -/
theorem digests_disjoint (hr : Run (traffic srv) (FreshDraws srv) (Traffic.start ext) past s) :
    ∀ u ∈ s.db .used_refresh_token, ∀ r ∈ s.db .user_session,
      UsedRefreshToken.digest u ≠ UserSession.refresh_digest r := by
  let I : TrafficPast Token → Traffic Token → Prop := fun _ s =>
    ∀ u ∈ s.db .used_refresh_token, ∀ r ∈ s.db .user_session,
      UsedRefreshToken.digest u ≠ UserSession.refresh_digest r
  have hI : I past s := by
    refine hr.invariant (I := I) ?_ ?_
    · intro u hu
      cases hu
    · intro past s move s' hrun ih _ hmove u hu r' hr' hsame
      rcases hmove.commits past with ⟨hdb, _⟩ | ⟨n, g, reply, rfl, hflies, hret, hredo, _⟩
      · rw [hdb] at hu hr'
        exact ih u hu r' hr' hsame
      have hg := (run_genuine hrun fun _ => rfl).1 n g hflies
      by_cases hissues : Issues g r'.id
      · -- the new digest is one that nobody has drawn before
        have hnew : ∀ f ∈ committed past, r'.refresh_digest ≠ f.job.drawn_digest srv := by
          intro f hf heq
          rw [digest_issued hg hredo hr' hissues] at heq
          exact (digests_apart hrun).landed n g hflies f hf heq.symm
        rcases used_from hg ⟨reply, hret⟩ hredo hu with hold | ⟨_, us, hdone, _, hdigest⟩
        · obtain ⟨⟨f, hf, hdrawn⟩, _⟩ := used_drawn hrun u hold
          exact hnew f hf (hsame.symm.trans hdrawn)
        · obtain ⟨y, hy, hus⟩ := hdone.found
          obtain ⟨f, hf, _, hdrawn⟩ := drawn_for hrun (.inl hy) hus
          exact hnew f hf (hsame.symm.trans (hdigest.trans hdrawn))
      · obtain ⟨r, hr, hcarried, hdigest⟩ := digest_kept hredo hr' hissues
        rcases used_from hg ⟨reply, hret⟩ hredo hu with hold | ⟨_, us, hdone, _, hused⟩
        · exact ih u hold r hr (hsame.trans hdigest)
        · -- whoever shows the digest that is used up is the session it is taken from
          obtain ⟨y, hy, hus⟩ := hdone.found
          have hid := session_of_digest hrun (x := y) (y := (.commit n, s)) (.inl hy) (.inr rfl)
            hus hr (hused.symm.trans (hsame.trans hdigest))
          refine hissues (.inr ⟨hash_refresh_token srv g.job.env.refresh_token, g.job.env.now, ?_⟩)
          rw [hcarried.id, ← hid, hdone.log]
          exact List.mem_cons_of_mem _ List.mem_cons_self
  exact hI

/-- **What a refresh has used up** is used for as long as the session is there. -/
theorem spent_by (hr : Run (traffic srv) (FreshDraws srv) (Traffic.start ext) past s) :
    ∀ f ∈ committed past, ∀ refresh_token, f.job.req.route = .refresh refresh_token →
      ∃ us, Exchanged srv past f refresh_token us ∧ ∀ r ∈ s.db .user_session,
        UserSession.id r = us.id → SpentFor s.db us.id (hash_refresh_token srv refresh_token) := by
  let I : TrafficPast Token → Traffic Token → Prop := fun past s =>
    ∀ f ∈ committed past, ∀ refresh_token, f.job.req.route = .refresh refresh_token →
      ∃ us, Exchanged srv past f refresh_token us ∧ ∀ r ∈ s.db .user_session,
        UserSession.id r = us.id → SpentFor s.db us.id (hash_refresh_token srv refresh_token)
  have hI : I past s := by
    refine hr.invariant (I := I) ?_ ?_
    · intro f hf
      cases hf
    · intro past s move s' hrun ih _ hmove f hf refresh_token hroute
      have hids : Run (traffic srv) FreshIds (Traffic.start ext) past s :=
        hrun.mono fun _ _ _ hfresh => hfresh.ids
      rcases hmove.commits past with ⟨hdb, hsame⟩ | ⟨n, g, reply, rfl, hflies, hret, hredo, hnew⟩
      · rw [hsame] at hf
        obtain ⟨us, hdone, hspent⟩ := ih f hf refresh_token hroute
        refine ⟨us, hdone.mono _, ?_⟩
        rw [hdb]
        exact hspent
      · rw [hnew] at hf
        rcases List.mem_cons.mp hf with rfl | hf
        · have hg := (run_genuine hrun fun _ => rfl).1 n f hflies
          obtain ⟨us, hdone⟩ := refresh_done hg ⟨reply, hret⟩ hroute
          exact ⟨us, hdone.mono _, fun _ _ _ => (exchange_redone hdone hredo).2.2⟩
        · obtain ⟨us, hdone, hspent⟩ := ih f hf refresh_token hroute
          refine ⟨us, hdone.mono _, fun r' hr' hid => ?_⟩
          -- a session with this id was there before the commit, as nobody draws the id again
          obtain ⟨y, hy, hus⟩ := hdone.found
          obtain ⟨q, hq, hcarried⟩ := session_prior hids hflies hredo (.inl hy) hus hr' hid
          exact spent_kept hids hflies hredo (hspent q hq (hcarried.id.symm.trans hid)) hr' hid
  exact hI

/-- **Presented once.** No two committed refreshes have presented the same digest. -/
theorem presented_once (hr : Run (traffic srv) (FreshDraws srv) (Traffic.start ext) past s) :
    (committed past).Pairwise fun g f => ∀ presented presented',
      g.job.req.route = .refresh presented → f.job.req.route = .refresh presented' →
        hash_refresh_token srv presented ≠ hash_refresh_token srv presented' := by
  let I : TrafficPast Token → Traffic Token → Prop := fun past _ =>
    (committed past).Pairwise fun g f => ∀ presented presented',
      g.job.req.route = .refresh presented → f.job.req.route = .refresh presented' →
        hash_refresh_token srv presented ≠ hash_refresh_token srv presented'
  have hI : I past s := by
    refine hr.invariant (I := I) List.Pairwise.nil ?_
    intro past s move s' hrun ih _ hmove
    rcases hmove.commits past with ⟨_, hsame⟩ | ⟨n, g, reply, rfl, hflies, hret, hredo, hnew⟩
    · show (committed ((move, s) :: past)).Pairwise _
      rw [hsame]
      exact ih
    · show (committed ((.commit n, s) :: past)).Pairwise _
      rw [hnew]
      refine List.pairwise_cons.mpr ⟨fun f hf presented presented' hroute hroute' hsame => ?_, ih⟩
      have hg := (run_genuine hrun fun _ => rfl).1 n g hflies
      obtain ⟨us, hdone⟩ := refresh_done hg ⟨reply, hret⟩ hroute
      obtain ⟨us', hdone', hspent⟩ := spent_by hrun f hf presented' hroute'
      obtain ⟨y, hy, hus⟩ := hdone.found
      obtain ⟨y', hy', hus'⟩ := hdone'.found
      have hid : us.id = us'.id := session_of_digest hrun (.inl hy) (.inl hy') hus hus'
        (hdone.digest.trans (hsame.trans hdone'.digest.symm))
      -- the session is still there, so the digest is still used, and the insert fails
      obtain ⟨⟨r, hr, hrid⟩, hunused, _⟩ := exchange_redone hdone hredo
      obtain ⟨u, hu, _, hdigest⟩ := hspent r hr (hrid.trans hid)
      exact hunused u hu (hdigest.trans hsame.symm)
  exact hI

/-! ### The token that is accepted -/

/-- Served alone on the committed rows, the refresh exchanges the token, for the session. -/
def Accepts (srv : Server Token) (s : Traffic Token) (env : Env) (refresh_token : String)
    (session_id : Uuid) : Prop :=
  ∃ issued t, (refresh_session srv env refresh_token).exec (perform schema run_ext)
    ⟨s.db, s.ext, []⟩ = (.ok issued, t) ∧ issued.session_id = session_id

theorem Accepts.current {env : Env} {refresh_token : String} {session_id : Uuid}
    (h : Accepts srv s env refresh_token session_id) :
    ∃ r ∈ s.db .user_session, UserSession.id r = session_id ∧
      r.refresh_digest = hash_refresh_token srv refresh_token := by
  let Q : Except Exc (IssuedSession Token) → Session → Prop := fun out _ =>
    ∀ issued, out = .ok issued → ∃ r ∈ s.db .user_session,
      UserSession.id r = issued.session_id ∧
        r.refresh_digest = hash_refresh_token srv refresh_token
  have hwp : wps (refresh_session srv env refresh_token) Q ⟨s.db, s.ext, []⟩ := by
    refine wps_refresh_session (fun e _ issued hout => ?_) fun us issued _ hrot hid out hout => ?_
    · cases hout
    · obtain rfl := Except.ok.inj hout
      exact ⟨us, hrot.mem, hid.symm, hrot.digest⟩
  obtain ⟨issued, t, hexec, rfl⟩ := h
  exact wp_exec hwp hexec issued rfl

/-- Who acts for a session now: a request that may begin, by whose clock the session is live,
    while its account is active. -/
structure MayRefresh (srv : Server Token) (past : TrafficPast Token) (s : Traffic Token)
    (r : UserSession) (a : Arrival Token) : Prop where
  fresh : ∃ n, FreshDraws srv past s (.begin n a)
  live : r.is_active a.env.now = true
  account : ∃ account ∈ s.db .user_account, UserAccount.id account = r.user_id ∧
    account.active = true

theorem current_accepted (hr : Run (traffic srv) (FreshDraws srv) (Traffic.start ext) past s)
    (hsha : Sha256 srv) {r : UserSession} (hmem : r ∈ s.db .user_session) {a : Arrival Token}
    (hmay : MayRefresh srv past s r a) {refresh_token : String}
    (hdigest : r.refresh_digest = hash_refresh_token srv refresh_token) :
    Accepts srv s a.env refresh_token r.id := by
  obtain ⟨⟨n, hfresh⟩, hlive, account, hacc, howner, hactive⟩ := hmay
  -- what the commits have drawn is not drawn again
  have hdrawn : ∀ f ∈ committed past, f.job.drawn_id ≠ a.drawn_id ∧
      f.job.drawn_digest srv ≠ a.drawn_digest srv := by
    intro f hf
    exact hfresh n a rfl f.job ((run_genuine hr fun _ => rfl).2 f hf).1.begun
  have hwp : wps (refresh_session srv a.env refresh_token)
      (fun out _ => ∃ issued, out = .ok issued ∧ issued.session_id = r.id) ⟨s.db, s.ext, []⟩ := by
    refine wps_refresh_session_admitted (traffic_consistent hr) List.not_mem_nil hmem hdigest hlive
      hacc howner hactive (fun u hu heq => ?_) (fun u hu heq => ?_) (fun token => ?_)
      (fun q hq heq => ?_) fun issued _ _ hid _ => ⟨issued, rfl, hid⟩
    · exact digests_disjoint hr u hu r hmem (heq.trans hdigest.symm)
    · obtain ⟨_, f, hf, hid⟩ := used_drawn hr u hu
      exact (hdrawn f hf).1 (hid.symm.trans heq)
    · exact (hsha _).le
    · obtain ⟨f, hlast, hcurrent⟩ := last_issued hr q hq
      exact (hdrawn f hlast.mem).2 (hcurrent.symm.trans heq)
  cases hexec : (refresh_session srv a.env refresh_token).exec (perform schema run_ext)
      ⟨s.db, s.ext, []⟩ with
  | mk out t =>
    obtain ⟨issued, rfl, hid⟩ := wp_exec hwp hexec
    exact ⟨issued, t, hexec, hid⟩

/-- **What is accepted** for a session: the digest of the token last issued for it. -/
theorem accepted_iff (hr : Run (traffic srv) (FreshDraws srv) (Traffic.start ext) past s)
    (hsha : Sha256 srv) {r : UserSession} (hmem : r ∈ s.db .user_session) {a : Arrival Token}
    (hmay : MayRefresh srv past s r a) (hdigest : r.refresh_digest = f.job.drawn_digest srv)
    (refresh_token : String) : Accepts srv s a.env refresh_token r.id ↔
      hash_refresh_token srv refresh_token = f.job.drawn_digest srv := by
  constructor
  · intro haccepts
    obtain ⟨q, hq, hid, hcurrent⟩ := haccepts.current
    obtain rfl := (traffic_consistent hr).eq_of_pk hq hmem hid
    exact hcurrent.symm.trans hdigest
  · intro hhash
    exact current_accepted hr hsha hmem hmay (hdigest.trans hhash.symm)

/-! ### In every run -/

/-- The digest stands on record for the session, as its current one or as one used up. -/
inductive OnRecord (db : Database) (digest : String) (session_id : Uuid) : Prop where
  | current {r : UserSession} (mem : r ∈ db .user_session) (shown : r.refresh_digest = digest)
      (owner : r.id = session_id)
  | used (spent : SpentFor db session_id digest)

/-- What holds of the refresh tokens at any point of a run. -/
structure TokensHold (srv : Server Token) (past : TrafficPast Token) (s : Traffic Token) :
    Prop where
  /-- no digest has been presented by two committed refreshes -/
  once : (committed past).Pairwise fun g f => ∀ presented presented',
    g.job.req.route = .refresh presented → f.job.req.route = .refresh presented' →
      hash_refresh_token srv presented ≠ hash_refresh_token srv presented'
  /-- the used digests and the current ones are apart -/
  disjoint : ∀ u ∈ s.db .used_refresh_token, ∀ r ∈ s.db .user_session,
    UsedRefreshToken.digest u ≠ UserSession.refresh_digest r
  /-- a digest on record is that of one session, which is there -/
  owner : ∀ digest session_id, OnRecord s.db digest session_id →
    (∃ r ∈ s.db .user_session, UserSession.id r = session_id) ∧
      ∀ session_id', OnRecord s.db digest session_id' → session_id' = session_id
  /-- what would be accepted for a session is the token that was last issued for it, and
      nothing else that has been issued -/
  accepted : ∀ r ∈ s.db .user_session, ∃ f, LastIssued past (UserSession.id r) f ∧
    ∀ a, MayRefresh srv past s r a →
      (∀ refresh_token, Accepts srv s a.env refresh_token r.id ↔
        hash_refresh_token srv refresh_token = f.job.drawn_digest srv) ∧
      ∀ g ∈ committed past, Accepts srv s a.env g.job.env.refresh_token r.id ↔ g = f

theorem digest_owner (hr : Run (traffic srv) (FreshDraws srv) (Traffic.start ext) past s)
    {digest : String} {i j : Uuid} (hi : OnRecord s.db digest i) (hj : OnRecord s.db digest j) :
    j = i := by
  have hc : schema.Consistent s.db := traffic_consistent hr
  cases hi with
  | @current r mem shown owner =>
    cases hj with
    | @current q mem' shown' owner' =>
      obtain rfl : r = q :=
        hc.eq_of_clash schema_regular mem mem' (beq_iff_eq.mpr (shown.trans shown'.symm))
      exact owner'.symm.trans owner
    | used spent =>
      obtain ⟨u, hu, _, hdigest⟩ := spent
      exact absurd (hdigest.trans shown.symm) (digests_disjoint hr u hu r mem)
  | used spent =>
    obtain ⟨u, hu, hsession, hdigest⟩ := spent
    cases hj with
    | @current q mem' shown' owner' =>
      exact absurd (hdigest.trans shown'.symm) (digests_disjoint hr u hu q mem')
    | used spent' =>
      obtain ⟨u', hu', hsession', hdigest'⟩ := spent'
      obtain rfl : u = u' :=
        hc.eq_of_clash schema_regular hu hu' (beq_iff_eq.mpr (hdigest.trans hdigest'.symm))
      exact hsession'.symm.trans hsession

/-- **Exchanged at most once.** In every run, however its requests interleave. -/
theorem tokens_exchanged_once (hsha : Sha256 srv)
    (hr : Run (traffic srv) (FreshDraws srv) (Traffic.start ext) past s) :
    TokensHold srv past s := by
  refine ⟨presented_once hr, digests_disjoint hr, fun digest i hi => ⟨?_, ?_⟩, fun r hmem => ?_⟩
  · cases hi with
    | @current r mem shown owner => exact ⟨r, mem, owner⟩
    | used spent =>
      obtain ⟨u, hu, hsession, _⟩ := spent
      obtain ⟨r, hr₀, hpk⟩ := (traffic_consistent hr).target hu
        (k := belongs .user_session UsedRefreshToken.session_id) List.mem_cons_self rfl
      exact ⟨r, hr₀, Eq.trans hpk hsession⟩
  · exact fun j hj => digest_owner hr hi hj
  · obtain ⟨f, hlast, hdigest⟩ := last_issued hr r hmem
    refine ⟨f, hlast, fun a hmay => ⟨accepted_iff hr hsha hmem hmay hdigest, fun g hg => ?_⟩⟩
    rw [accepted_iff hr hsha hmem hmay hdigest]
    constructor
    · intro hsame
      exact Schema.eq_of_pairwise (digests_apart hr).committed hg hlast.mem (fun hne => hne hsame)
        (fun hne => hne hsame.symm)
    · rintro rfl
      rfl

end along

/-! ### A session, and one exchange of its token -/

namespace Sample

def refreshed : List Line :=
  [⟨3, 102 * second, ⟨none, .refresh "2"⟩⟩,
    ⟨2, 101 * second, ⟨none, .login "a@x.org" "correct horse"⟩⟩,
    ⟨1, 100 * second, ⟨none, .register "a@x.org" "correct horse" none⟩⟩]

/-- The token that has been exchanged, presented again. -/
def replayed : Line := ⟨4, 103 * second, ⟨none, .refresh "2"⟩⟩

end Sample

/-- The token has been exchanged when it is presented again: that request, still in
    flight, is refused. -/
theorem token_exchanged : Sha256 Sample.server ∧
    ∃ past s, Run (traffic Sample.server) (FreshDraws Sample.server)
        (Traffic.start Sample.nothing_stored) past s ∧
      (s.db .used_refresh_token).length = 1 ∧
      (∃ f e, s.running 1 = some f ∧ f.rest = .raise (.http e) ∧ e.status = 401) ∧
      TokensHold Sample.server past s := by
  have hscript : (Sample.joined_by Sample.server Sample.refreshed Sample.replayed 3).any (fun s =>
      decide ((s.db .used_refresh_token).length = 1) && Sample.refuses_newcomer 401 s) = true := by
    decide +kernel
  have hfresh : (Sample.replayed :: Sample.refreshed).map Sample.Line.arrival |>.Pairwise
      (fun a b => Arrival.drawn_id b ≠ a.drawn_id ∧
        b.drawn_digest Sample.server ≠ a.drawn_digest Sample.server) := by
    decide +kernel
  obtain ⟨hlast, hearlier⟩ := List.pairwise_cons.mp hfresh
  obtain ⟨s, hs, hboth⟩ := (Option.any_eq_true _ _).mp hscript
  obtain ⟨hused, hrefused⟩ := Bool.and_eq_true_iff.mp hboth
  obtain ⟨w, hw, hplay⟩ := Option.bind_eq_some_iff.mp hs
  obtain ⟨past, hr, hbegun⟩ := pairwise_one_by_one (R := fun b a : Arrival Payload =>
    b.drawn_id ≠ a.drawn_id ∧ b.drawn_digest Sample.server ≠ a.drawn_digest Sample.server)
    hearlier hw
  have hmay : FreshDraws Sample.server past ⟨w.db, w.ext, fun _ => none⟩
      (.begin 1 Sample.replayed.arrival) := by
    intro n a hmove b hb
    obtain ⟨_, rfl⟩ := Move.begin.inj hmove
    rw [hbegun] at hb
    exact hlast b hb
  obtain ⟨past', hr', _⟩ := run_joined hr hmay (fun _ _ _ _ hmove => by cases hmove) hplay
  exact ⟨Sample.sha256_length, past', s, hr', of_decide_eq_true hused,
    Sample.refused_of_refuses hrefused, tokens_exchanged_once Sample.sha256_length hr'⟩

end CounselReady
