import CounselReady.Framework.SingleUse
import CounselReady.Guarantees.ActiveSecret
import CounselReady.Specs.Admission
import CounselReady.Specs.Sessions

/-! # Revoked for Good

    A logout, a logout of all and a refresh write to the row of a session while others
    read it. None of them writes the column that another one has set back, and every
    one of them looks at the session before it goes on.

    * `session_carried`: a session stays what it is, and a revocation stays, from any
      committed state of a run to any later one.
    * `dead_refused`, `returned_live`: what a request makes of the session it looks at.
    * `everywhere_revoked`: what is revoked after a logout of all.
    * `sessions_apart`: whose sessions a commit touches.
-/

namespace CounselReady

open Relational Framework Handler Prog

variable {Token : Type} {srv : Server Token}

def Arrival.drawn_id (a : Arrival Token) : Uuid := a.env.uuid 0

/-- `uuid4` gives a new id to every request that begins. -/
def FreshIds (past : TrafficPast Token) (_ : Traffic Token) (move : Move (Arrival Token)) : Prop :=
  ∀ n a, move = .begin n a → ∀ b ∈ begun past, Arrival.drawn_id b ≠ a.drawn_id

/-! ### A session along a run -/

section along
variable {ext : Outside} {past : TrafficPast Token} {s : Traffic Token} {g : InFlight Token}
  {db' : Database}

/-- A session after a commit is one from before, or the commit brings it. -/
theorem session_before (hg : Genuine schema run_ext (Arrival.handler srv) past g)
    (hredo : redo schema g.log s.db = some db') {r' : UserSession} (hr' : r' ∈ db' .user_session) :
    (∃ r ∈ s.db .user_session, Carried r r') ∨ r'.id = g.job.drawn_id := by
  let J : Database → Prop := fun db => ∀ r' ∈ db .user_session,
    (∃ r ∈ s.db .user_session, Carried r r') ∨ UserSession.id r' = g.job.drawn_id
  have hJ : J db' := by
    refine redo_invariant hredo (fun r hr => .inl ⟨r, hr, .refl r⟩) ?_
    intro w hw db _ hdb r' hr'
    rcases session_from (log_permitted hg hw) hr' with ⟨r₀, hr₀, hcarried, _⟩ | ⟨_, _, hid, _⟩
    · rcases hdb r₀ hr₀ with ⟨r, hr, hbefore⟩ | hid
      · exact .inl ⟨r, hr, hbefore.trans hcarried⟩
      · exact .inr (hcarried.id.trans hid)
    · exact .inr hid
  exact hJ r' hr'

/-- The id of a session was drawn by a request that has committed. -/
theorem sessions_drawn {may : TrafficPast Token → Traffic Token → Move (Arrival Token) → Prop}
    (hr : Run (traffic srv) may (Traffic.start ext) past s) :
    ∀ r ∈ s.db .user_session, ∃ f ∈ committed past, f.job.drawn_id = UserSession.id r := by
  refine hr.invariant (I := fun past s => ∀ r ∈ s.db .user_session,
    ∃ f ∈ committed past, f.job.drawn_id = UserSession.id r) ?_ ?_
  · intro r hr
    cases hr
  · intro past s move s' hrun ih _ hmove r' hr'
    rcases hmove.commits past with ⟨hdb, hsame⟩ | ⟨n, g, _, rfl, hflies, _, hredo, hnew⟩
    · rw [hdb] at hr'
      rw [hsame]
      exact ih r' hr'
    · rw [hnew]
      have hg := (run_genuine hrun fun _ => rfl).1 n g hflies
      rcases session_before hg hredo hr' with ⟨r, hr, hcarried⟩ | hid
      · obtain ⟨f, hf, hdrawn⟩ := ih r hr
        exact ⟨f, List.mem_cons_of_mem g hf, hdrawn.trans hcarried.id.symm⟩
      · exact ⟨g, List.mem_cons_self, hid.symm⟩

theorem committed_earlier {later earlier : TrafficPast Token}
    {x : Move (Arrival Token) × Traffic Token} {f : InFlight Token} (hf : f ∈ committed earlier) :
    f ∈ committed (later ++ x :: earlier) := by
  obtain ⟨y, hy, hlanded⟩ := List.mem_filterMap.mp hf
  exact List.mem_filterMap.mpr ⟨y, List.mem_append_right _ (List.mem_cons_of_mem _ hy), hlanded⟩

/-- A session that was there before the commit, or at any time before that, is one from
    before: no other request draws its id. -/
theorem session_prior (hr : Run (traffic srv) FreshIds (Traffic.start ext) past s) {n : Nat}
    (hflies : s.running n = some g) (hredo : redo schema g.log s.db = some db')
    {x : Move (Arrival Token) × Traffic Token} (hx : x ∈ past ∨ x.2 = s) {r r' : UserSession}
    (hmem : r ∈ x.2.db .user_session) (hmem' : r' ∈ db' .user_session) (hid : r'.id = r.id) :
    ∃ q ∈ s.db .user_session, Carried q r' := by
  have hg := (run_genuine hr fun _ => rfl).1 n g hflies
  rcases session_before hg hredo hmem' with hbefore | hdrawn
  · exact hbefore
  have hapart : Framework.Apart Arrival.drawn_id past s :=
    run_apart hr (fun _ => rfl) fun past s n job hmay => hmay n job rfl
  obtain ⟨f, hf, hfid⟩ : ∃ f ∈ committed past, f.job.drawn_id = r.id := by
    rcases hx with hx | rfl
    · obtain ⟨later, earlier, rfl⟩ := List.append_of_mem hx
      obtain ⟨move, s₁⟩ := x
      obtain ⟨f, hf, hfid⟩ := sessions_drawn hr.split.1 r hmem
      exact ⟨f, committed_earlier hf, hfid⟩
    · exact sessions_drawn hr r hmem
  exact absurd (hfid.trans (hid.symm.trans hdrawn)) (hapart.landed n g hflies f hf)

/-- **A session stays what it is.** From any committed state to any later one its owner and
    its expiry are the same, and a revocation stays. -/
theorem session_carried (hr : Run (traffic srv) FreshIds (Traffic.start ext) past s)
    {x : Move (Arrival Token) × Traffic Token} (hx : x ∈ past) {r r' : UserSession}
    (hmem : r ∈ x.2.db .user_session) (hmem' : r' ∈ s.db .user_session) (hid : r'.id = r.id) :
    Carried r r' := by
  let I : TrafficPast Token → Traffic Token → Prop := fun past s =>
    ∀ x ∈ past, ∀ r ∈ x.2.db .user_session, ∀ r' ∈ s.db .user_session,
      UserSession.id r' = UserSession.id r → Carried r r'
  have hI : I past s := by
    refine hr.invariant (I := I) ?_ ?_
    · intro x hx
      cases hx
    · intro past s move s' hrun ih _ hmove x hx r hr r' hr' hid
      -- to the state before the move, and from there on
      have hold : ∀ q ∈ s.db .user_session, UserSession.id q = UserSession.id r → Carried r q := by
        intro q hq hqid
        rcases List.mem_cons.mp hx with rfl | hx
        · obtain rfl := (traffic_consistent hrun).eq_of_pk hq hr hqid
          exact .refl q
        · exact ih x hx r hr q hq hqid
      rcases hmove.commits past with ⟨hdb, _⟩ | ⟨n, g, _, rfl, hflies, _, hredo, _⟩
      · rw [hdb] at hr'
        exact hold r' hr' hid
      · have hx' : x ∈ past ∨ x.2 = s := by
          rcases List.mem_cons.mp hx with rfl | hx
          · exact .inr rfl
          · exact .inl hx
        obtain ⟨q, hq, hcarried⟩ := session_prior hrun hflies hredo hx' hr hr' hid
        exact (hold q hq (hcarried.id.symm.trans hid)).trans hcarried
  exact hI x hx r hmem r' hmem' hid

end along

/-! ### The look at the session -/

def by_digest (digest : String) : UserSession → Bool := fun s => s.refresh_digest == digest

/-- The call of a request that finds its session, what it looks for, and the answer if
    that is not live. Behind the gate it is the first call; a refresh has asked before
    whether the token has been used. -/
inductive LivenessRead (srv : Server Token) (f : InFlight Token) :
    Event Row Patch Uuid Answer → (UserSession → Bool) → Exc → Prop where
  | gate {claims : AccessTokenClaims} {e : Event Row Patch Uuid Answer}
      {later : List (Event Row Patch Uuid Answer)} (guarded : f.job.req.route.guarded = true)
      (names : Names srv f.job claims) (seen : f.seen = later ++ [e]) :
      LivenessRead srv f e (by_id claims.session_id) unauthenticated
  | refresh {refresh_token : String} {e e₀ : Event Row Patch Uuid Answer}
      {later : List (Event Row Patch Uuid Answer)}
      (route : f.job.req.route = .refresh refresh_token) (seen : f.seen = later ++ [e, e₀])
      (unused : e₀.handed .used_refresh_token = []) :
      LivenessRead srv f e (by_digest (hash_refresh_token srv refresh_token)) invalid_refresh

/-- The program looks for a session first, and raises `exc` when it finds none that is live. -/
def LooksFirst (now : Nat) (p : UserSession → Bool) (exc : Exc) (h : Handler (Reply Token)) : Prop :=
  ∃ k, h = .call (.select .user_session p) k ∧ ∀ rows : List UserSession, rows.length ≤ 1 →
    (∀ q ∈ rows, q.is_active now = false) → k rows = .raise exc

section looks
variable {past : TrafficPast Token} {f : InFlight Token}

theorem gate_looks {a : Arrival Token} {claims : AccessTokenClaims}
    (hguarded : a.req.route.guarded = true) (hnames : Names srv a claims) :
    LooksFirst a.env.now (by_id claims.session_id) unauthenticated (a.handler srv) := by
  obtain ⟨token, htoken, hclaims⟩ := hnames
  obtain ⟨f, hf⟩ : ∃ f, respond srv a.env a.req = authenticated srv a.env a.req.credentials >>= f :=
    respond_guarded hguarded
  unfold Arrival.handler
  rw [hf, htoken]
  unfold authenticated
  show LooksFirst _ _ _ (((some_or (decode_access_token srv token a.env.now) unauthenticated) >>= _)
    >>= f)
  rw [hclaims]
  refine ⟨_, rfl, fun rows hone hdead => ?_⟩
  match rows with
  | [] => rfl
  | [q] =>
    have hlive : Option.filter (fun s : UserSession => s.is_active a.env.now) (some q) = none :=
      Option.filter_some_neg (hdead q List.mem_cons_self)
    show (((require (Option.filter (fun s : UserSession => s.is_active a.env.now)
      (some q)).isSome unauthenticated) >>= _) >>= f) = _
    rw [hlive]
    rfl
  | _ :: _ :: _ => exact absurd hone (by simp)

/-- A refresh that finds its token unused. -/
theorem refresh_looks {a : Arrival Token} {refresh_token : String}
    (hroute : a.req.route = .refresh refresh_token) :
    (a.handler srv = .raise unprocessable) ∨
      ∃ k, a.handler srv = .call (.select .used_refresh_token (fun u : UsedRefreshToken =>
          u.digest == hash_refresh_token srv refresh_token)) k ∧
        LooksFirst a.env.now (by_digest (hash_refresh_token srv refresh_token)) invalid_refresh
          (k []) := by
  obtain ⟨env, ⟨credentials, route⟩⟩ := a
  obtain rfl : route = .refresh refresh_token := hroute
  show (refresh srv env refresh_token = _) ∨ _
  unfold Arrival.handler respond
  dsimp only
  unfold refresh
  cases length_within 0 512 refresh_token with
  | false => exact .inl rfl
  | true =>
    refine .inr ⟨_, rfl, _, rfl, fun rows hone hdead => ?_⟩
    match rows with
    | [] => rfl
    | [q] =>
      show (rethrow refresh_answer
        (require (q.is_active env.now) .invalid_refresh_token >>= _)) >>= _ = _
      rw [hdead q List.mem_cons_self]
      rfl
    | _ :: _ :: _ => exact absurd hone (by simp)

/-- What is left of a program that has looked for a session, and found none that is live. -/
theorem refused_at_look {now : Nat} {p : UserSession → Bool} {exc : Exc} {h rest : Handler (Reply Token)}
    {later : Trace} {e : Event Row Patch Uuid Answer} (hlooks : LooksFirst now p exc h)
    (htrace : Traced h (later ++ [e.exchange]) rest)
    (hfound : ∀ rows, e = ⟨e.rows, .select .user_session p, rows⟩ →
      rows = (e.rows .user_session).filter p)
    (hone : ((e.rows .user_session).filter p).length ≤ 1)
    (hdead : ∀ q ∈ e.rows .user_session, p q = true → UserSession.is_active q now = false) :
    rest = .raise exc := by
  obtain ⟨k, rfl, hk⟩ := hlooks
  rcases htrace.first with ⟨hnil, _⟩ | ⟨rows, later', hsplit, hrest⟩
  · simp at hnil
  · obtain ⟨rfl, hlast⟩ := List.append_inj' hsplit rfl
    obtain rfl := hfound rows (Event.eq_of_exchange (List.cons.inj hlast).1)
    have hraise : k ((e.rows .user_session).filter p) = .raise exc :=
      hk _ hone fun q hq => hdead q (List.mem_filter.mp hq).1 (List.mem_filter.mp hq).2
    rw [hraise] at hrest
    exact hrest.raised.2

/-- **A look that finds no live session is the end.** -/
theorem dead_refused {e : Event Row Patch Uuid Answer} {p : UserSession → Bool} {exc : Exc}
    (hf : Genuine schema run_ext (Arrival.handler srv) past f) (hc : schema.Consistent e.rows)
    (hread : LivenessRead srv f e p exc)
    (hdead : ∀ q ∈ e.rows .user_session, p q = true → UserSession.is_active q f.job.env.now = false) :
    f.rest = .raise exc := by
  cases hread with
  | @gate claims _ later guarded names seen =>
    have htrace := hf.traced
    rw [seen, List.map_append] at htrace
    have hpk : ∀ r : Row .user_session, by_id claims.session_id r = true →
        schema.pk .user_session r = claims.session_id := fun _ hr => eq_of_beq hr
    have hone : ((e.rows .user_session).filter (by_id claims.session_id)).length ≤ 1 :=
      hc.select_one hpk
    refine refused_at_look (gate_looks guarded names) htrace (fun rows he => ?_) hone hdead
    obtain ⟨ext, ext', hanswers⟩ := hf.answered later e [] seen
    rw [he] at hanswers
    exact hanswers.first rfl fun _ h => absurd h List.not_mem_nil
  | @refresh refresh_token _ e₀ later route seen unused =>
    have htrace := hf.traced
    rw [seen] at htrace
    rcases refresh_looks route with hraise | ⟨k, hcall, hlooks⟩
    · rw [hraise] at htrace
      have hnil := htrace.raised.1
      simp at hnil
    rw [hcall] at htrace
    rcases htrace.first with ⟨hnil, _⟩ | ⟨rows, later', hsplit, hrest⟩
    · simp at hnil
    have hseen : later ++ [e, e₀] = later ++ [e] ++ [e₀] := List.append_cons later e [e₀]
    rw [hseen, List.map_append] at hsplit
    obtain ⟨rfl, hlast⟩ := List.append_inj' hsplit rfl
    have he₀ := Event.eq_of_exchange (List.cons.inj hlast).1
    -- the token had not been used
    have hhanded : e₀.handed .used_refresh_token = rows := by
      rw [he₀]
      exact Event.handed_select
    have hnone : rows = [] := hhanded.symm.trans unused
    rw [hnone, List.map_append] at hrest
    have hone : ((e.rows .user_session).filter
        (by_digest (hash_refresh_token srv refresh_token))).length ≤ 1 :=
      one_session_by_digest hc _
    refine refused_at_look hlooks hrest (fun found he => ?_) hone hdead
    obtain ⟨ext, ext', hanswers⟩ := hf.answered later e [e₀] seen
    rw [he] at hanswers
    refine hanswers.first ?_ fun e' he' => ?_
    · rw [he₀]
      rfl
    · obtain rfl := List.mem_singleton.mp he'
      rw [he₀]
      rfl

end looks

/-! ### What the routes do to sessions -/

/-- No session is written to, and no account is deleted. -/
def spares_sessions : Op Row Patch Uuid Ext → Prop
  | .write (.update .user_session _ _) => False
  | .write (.delete .user_account _) => False
  | _ => True

/-- The sessions that a logout of all looks for. -/
def open_sessions (user_id : Uuid) : UserSession → Bool :=
  fun s => s.user_id == user_id && s.revoked_at.isNone

section traces
variable {β : Type} {l : Trace}

/-- Behind the gate. -/
theorem guarded_trace {a : Arrival Token} (hguarded : a.req.route.guarded = true) :
    Ends (fun l _ => ∃ claims us account gate later, Gated srv a claims us account gate ∧
      l = later ++ gate) [] (a.handler srv) := by
  obtain ⟨f, hf⟩ : ∃ f, respond srv a.env a.req = authenticated srv a.env a.req.credentials >>= f :=
    respond_guarded hguarded
  unfold Arrival.handler
  rw [hf]
  refine ends_authenticated_bind fun claims us account gate hgated => ?_
  refine ends_mono (ends_confined (every_any _)) ?_
  rintro _ _ ⟨later, rfl, _⟩
  exact ⟨claims, us, account, gate, later, hgated, rfl⟩

/-- The two statements of a rotation. -/
def rotation (srv : Server Token) (a : Arrival Token) (refresh_token : String) (us : UserSession) :
    List (Write Row Patch Uuid) :=
  [.insert .used_refresh_token ⟨a.drawn_id, us.id, hash_refresh_token srv refresh_token⟩,
    .update .user_session us.id (.rotate (hash_refresh_token srv a.env.refresh_token) a.env.now)]

/-- A refresh that returns: the session it has found by the digest, and rotated. -/
structure RefreshTrace (srv : Server Token) (a : Arrival Token) (refresh_token : String)
    (us : UserSession) (l : Trace) : Prop where
  trace : ∃ later p, l = later ++
    [⟨.select .user_session (by_digest (hash_refresh_token srv refresh_token)), [us]⟩,
      ⟨.select .used_refresh_token p, []⟩]
  live : us.is_active a.env.now = true
  writes : wrote l = rotation srv a refresh_token us

theorem refresh_trace {a : Arrival Token} {refresh_token : String}
    (hroute : a.req.route = .refresh refresh_token) :
    Ends (fun l _ => ∃ us, RefreshTrace srv a refresh_token us l) [] (a.handler srv) := by
  obtain ⟨env, ⟨credentials, route⟩⟩ := a
  obtain rfl : route = .refresh refresh_token := hroute
  refine ends_require_bind fun _ => ?_
  refine ends_bind ((outline_rethrow _ _).mpr ?_)
  refine ends_select_one_bind ?_ fun replayed _ _ _ => ?_
  · refine ends_select_one_bind ?_ fun us _ _ _ => ?_
    · exact ends_some_or_bind fun _ h => by cases h
    refine ends_some_or_bind fun us' hus => ?_
    cases hus
    refine ends_require_bind fun hlive => ?_
    refine ends_select_one_bind ?_ fun account _ _ _ => ?_
    · exact ends_some_or_bind fun _ h => by cases h
    refine ends_some_or_bind fun account' haccount => ?_
    cases haccount
    refine ends_require_bind fun _ => ?_
    refine ends_execute_bind (ends_execute_bind ?_)
    have hrest : Confined (fun o => ∀ w, o ≠ .write w)
        (issue_access_token srv account.id us.id env.now >>= fun token =>
          (pure ⟨token, env.refresh_token, us.id, account⟩ : Handler (IssuedSession Token))) :=
      confined_bind (confined_sign fun _ h => by cases h) fun _ => every_pure _
    refine ends_mono (ends_confined hrest) ?_
    rintro _ issued ⟨tail, rfl, htail⟩
    refine ⟨us, ⟨tail ++ [_, _, _], _, by rw [List.append_assoc]; rfl⟩, hlive, ?_⟩
    rw [wrote_append, wrote_quiet htail, List.append_nil]
    rfl
  · -- a token that has been used is refused, whatever becomes of its session
    refine ends_bind (ends_mono (ends_confined (every_any _)) ?_)
    exact fun _ _ _ => trivial

/-- A logout: the session behind the token, and no other. -/
theorem logout_trace {a : Arrival Token} (hroute : a.req.route = .logout) :
    Ends (fun l _ => ∃ claims, Names srv a claims ∧ ∀ x ∈ l, spares_sessions x.1 ∨
      ∃ patch, x.1 = .write (.update .user_session claims.session_id patch)) [] (a.handler srv) := by
  obtain ⟨env, ⟨credentials, route⟩⟩ := a
  obtain rfl : route = .logout := hroute
  refine ends_authenticated_bind fun claims us account gate hgated => ?_
  have hgate : ∀ x ∈ gate, spares_sessions x.1 := by
    intro x hx
    obtain ⟨t, p, hop, _⟩ := hgated.reads x hx
    rw [hop]
    trivial
  refine ends_bind (ends_select_one_bind ?_ fun r' r hpk hr => ?_)
  · refine ⟨claims, hgated.names, fun x hx => .inl ?_⟩
    rcases List.mem_cons.mp hx with rfl | hx
    · trivial
    · exact hgate x hx
  have hid : r'.id = claims.session_id := Eq.trans (Eq.symm hpk) (beq_iff_eq.mp hr)
  have hread : ∀ x ∈ (⟨.select .user_session (by_id claims.session_id), [r']⟩ :: gate : Trace),
      spares_sessions x.1 := by
    intro x hx
    rcases List.mem_cons.mp hx with rfl | hx
    · trivial
    · exact hgate x hx
  dsimp only
  split
  · refine ends_execute ⟨claims, hgated.names, fun x hx => ?_⟩
    rcases List.mem_cons.mp hx with rfl | hx
    · exact .inr ⟨_, by rw [← hid]⟩
    · exact .inl (hread x hx)
  · exact ⟨claims, hgated.names, fun x hx => .inl (hread x hx)⟩

/-- A logout of all: every session it has been handed, and no other. -/
structure EverywhereTrace (claims : AccessTokenClaims) (rows : List UserSession)
    (now : Nat) (later gate l : Trace) : Prop where
  trace : l = later ++ ⟨.select .user_session (open_sessions claims.user_id), rows⟩ :: gate
  gate : ∀ x ∈ gate, ∃ t p, x.1 = .select t p
  revokes : ∀ x ∈ later, ∃ us ∈ rows, x.1 = .write (.update .user_session us.id (.revoke now))
  covers : ∀ us ∈ rows, ⟨.write (.update .user_session us.id (.revoke now)), .ok ()⟩ ∈ later

theorem ends_revoke_all {env : Env} {rows : List UserSession} :
    Ends (fun l' _ => ∃ later, l' = later ++ l ∧
      (∀ x ∈ later, ∃ us ∈ rows, x.1 = .write (.update .user_session us.id (.revoke env.now))) ∧
      ∀ us ∈ rows, ⟨.write (.update .user_session us.id (.revoke env.now)), .ok ()⟩ ∈ later) l
      (revoke_all env rows) := by
  induction rows generalizing l with
  | nil =>
    exact ⟨[], rfl, fun _ h => absurd h List.not_mem_nil, fun _ h => absurd h List.not_mem_nil⟩
  | cons us rows ih =>
    refine ends_execute_bind (ends_mono ih ?_)
    rintro _ _ ⟨later, rfl, hlater, hcovers⟩
    refine ⟨later ++ [_], by rw [List.append_assoc]; rfl, fun x hx => ?_, fun us' hus' => ?_⟩
    · rcases List.mem_append.mp hx with hx | hx
      · obtain ⟨us', hus', hop⟩ := hlater x hx
        exact ⟨us', List.mem_cons_of_mem us hus', hop⟩
      · obtain rfl := List.mem_singleton.mp hx
        exact ⟨us, List.mem_cons_self, rfl⟩
    · rcases List.mem_cons.mp hus' with rfl | hus'
      · exact List.mem_append_right _ List.mem_cons_self
      · exact List.mem_append_left _ (hcovers us' hus')

theorem everywhere_trace {a : Arrival Token} (hroute : a.req.route = .logout_everywhere) :
    Ends (fun l _ => ∃ claims rows later gate, Names srv a claims ∧
      EverywhereTrace claims rows a.env.now later gate l) [] (a.handler srv) := by
  obtain ⟨env, ⟨credentials, route⟩⟩ := a
  obtain rfl : route = .logout_everywhere := hroute
  refine ends_current_user_bind fun claims us account gate hgated => ?_
  refine ends_select_bind fun rows _ => ends_bind (ends_mono ends_revoke_all ?_)
  rintro _ _ ⟨later, rfl, hlater, hcovers⟩
  refine ⟨claims, rows, later, gate, hgated.names, ?_, fun x hx => ?_, hlater, hcovers⟩
  · rw [← hgated.account]
    rfl
  · obtain ⟨t, p, hop, _⟩ := hgated.reads x hx
    exact ⟨t, p, hop⟩

/-- The account of the request is the one that is deleted. -/
def deletes_only (user_id : Uuid) : Op Row Patch Uuid Ext → Prop
  | .write (.delete .user_account id) => id = user_id
  | _ => True

theorem deletion_trace {a : Arrival Token} (hroute : a.req.route.deletes_account = true) :
    Ends (fun l _ => ∃ claims, Names srv a claims ∧ ∀ x ∈ l, deletes_only claims.user_id x.1) []
      (a.handler srv) := by
  obtain ⟨env, ⟨credentials, route⟩⟩ := a
  cases route <;> try exact absurd hroute Bool.false_ne_true
  case delete_own_account password mfa_code acknowledge =>
    refine ends_current_user_bind fun claims us account gate hgated => ?_
    have hcheck : Confined (deletes_only claims.user_id)
        (reauthenticate srv env account password mfa_code) := by
      have hpermitted : Confined (permits srv env (.mfa_disable "" "" : Route Token))
          (reauthenticate srv env account password mfa_code) := confined_reauthenticate rfl
      refine every_mono hpermitted fun o ho => ?_
      unfold deletes_only
      split
      · cases ho
      · trivial
    have hdestroy : Confined (deletes_only claims.user_id)
        (destroy account : Handler (Reply Token)) :=
      confined_destroy (fun _ _ => trivial) trivial hgated.account fun _ => trivial
    refine ends_require_bind fun _ => ?_
    refine ends_require_bind fun _ => ?_
    refine ends_require_bind fun _ => ?_
    refine ends_mono (ends_confined (confined_bind hcheck fun _ => hdestroy)) ?_
    rintro _ _ ⟨tail, rfl, htail⟩
    refine ⟨claims, hgated.names, fun x hx => ?_⟩
    rcases List.mem_append.mp hx with hlate | hearly
    · exact htail x hlate
    · obtain ⟨t, p, hop, _⟩ := hgated.reads x hearly
      rw [hop]
      trivial

end traces

/-! ### Whose sessions a commit touches -/

/-- The sessions a request acts upon: those of its account, or the one of its token. -/
inductive Touches (srv : Server Token) (f : InFlight Token) (r : UserSession) : Prop where
  | logout {claims : AccessTokenClaims} (route : f.job.req.route = .logout)
      (names : Names srv f.job claims) (behind : r.id = claims.session_id)
  | logout_everywhere {claims : AccessTokenClaims} (route : f.job.req.route = .logout_everywhere)
      (names : Names srv f.job claims) (owner : r.user_id = claims.user_id)
  | deletion {claims : AccessTokenClaims} (route : f.job.req.route.deletes_account = true)
      (names : Names srv f.job claims) (owner : r.user_id = claims.user_id)
  | refresh {refresh_token : String} {e : Event Row Patch Uuid Answer} {us : UserSession}
      (route : f.job.req.route = .refresh refresh_token) (seen : e ∈ f.seen)
      (found : us ∈ e.rows .user_session)
      (digest : us.refresh_digest = hash_refresh_token srv refresh_token) (same : us.id = r.id)

section touches
variable {ext : Outside} {past : TrafficPast Token} {s : Traffic Token} {f : InFlight Token}
  {db' : Database} {r : UserSession}

theorem updated_id {id id' : Uuid} {patch patch' : SessionPatch}
    (h : (.write (.update .user_session id patch) : Op Row Patch Uuid Ext) =
      .write (.update .user_session id' patch')) : id = id' := by
  cases h
  rfl

theorem touched_by_update (hr : Run (traffic srv) FreshIds (Traffic.start ext) past s)
    (hf : Genuine schema run_ext (Arrival.handler srv) past f) (hret : ∃ reply, f.rest = .ret reply)
    (hmem : r ∈ s.db .user_session) {patch : SessionPatch}
    (hw : .update .user_session r.id patch ∈ f.log) : Touches srv f r := by
  obtain ⟨reply, hret⟩ := hret
  have hcall := mem_wrote hw
  have hroute : (∃ refresh_token, f.job.req.route = .refresh refresh_token) ∨
      f.job.req.route = .logout ∨ f.job.req.route = .logout_everywhere := by
    have hpermitted := log_permitted hf hw
    have hrevokes : f.job.req.route.revokes = true ∨ f.job.req.route.refreshes = true := by
      cases patch with
      | revoke now => exact .inl hpermitted
      | rotate digest now => exact .inr hpermitted.1
    cases hroute : f.job.req.route <;> rw [hroute] at hrevokes <;> simp_all [Route.revokes,
      Route.refreshes]
  rcases hroute with ⟨refresh_token, hroute⟩ | hroute | hroute
  · have hout := hf.traced.outline (refresh_trace hroute) hf.keyed
    rw [hret] at hout
    obtain ⟨us, ⟨later, p, htrace⟩, _, hwrites⟩ := hout
    obtain ⟨e, he, _, _, hrows⟩ := hf.first_select htrace fun x hx => by
      obtain rfl := List.mem_singleton.mp hx
      exact ⟨_, _, rfl, by decide⟩
    have hfound : us ∈ (e.rows .user_session).filter
        (by_digest (hash_refresh_token srv refresh_token)) := by
      rw [← hrows]
      exact List.mem_singleton_self us
    obtain ⟨hus, hdigest⟩ := List.mem_filter.mp hfound
    have hsame : us.id = r.id := by
      have hlog : f.log = rotation srv f.job refresh_token us := hwrites
      rw [hlog] at hw
      rcases List.mem_cons.mp hw with heq | hw
      · cases heq
      · exact (updated_id (congrArg Op.write (List.mem_singleton.mp hw))).symm
    exact .refresh hroute he hus (eq_of_beq hdigest) hsame
  · have hout := hf.traced.outline (logout_trace hroute) hf.keyed
    rw [hret] at hout
    obtain ⟨claims, hnames, hall⟩ := hout
    rcases hall _ hcall with hspares | ⟨patch', heq⟩
    · exact hspares.elim
    · exact .logout hroute hnames (updated_id heq)
  · have hout := hf.traced.outline (everywhere_trace hroute) hf.keyed
    rw [hret] at hout
    obtain ⟨claims, rows, later, gate, hnames, htrace⟩ := hout
    obtain ⟨e, he, _, hfound, _⟩ := hf.select_stands htrace.trace htrace.gate
    -- the row that was found, as it was then
    obtain ⟨us, hus, hid⟩ : ∃ us ∈ rows, UserSession.id us = r.id := by
      rw [htrace.trace] at hcall
      rcases List.mem_append.mp hcall with hx | hx
      · obtain ⟨us, hus, heq⟩ := htrace.revokes _ hx
        exact ⟨us, hus, (updated_id heq).symm⟩
      · rcases List.mem_cons.mp hx with heq | hx
        · cases heq
        · obtain ⟨t, p, hop⟩ := htrace.gate _ hx
          cases hop
    obtain ⟨r₀, hr₀, hopen, hpk⟩ := hfound us hus
    obtain ⟨x, hx, hrows⟩ := hf.dated e he
    rw [← hrows] at hr₀
    have hcarried := session_carried hr hx hr₀ hmem (hid.symm.trans (Eq.symm hpk))
    refine .logout_everywhere hroute hnames (hcarried.user_id.trans ?_)
    exact eq_of_beq (Bool.and_eq_true_iff.mp hopen).1

theorem touched_by_deletion (hf : Genuine schema run_ext (Arrival.handler srv) past f)
    (hret : ∃ reply, f.rest = .ret reply) (hw : .delete .user_account r.user_id ∈ f.log) :
    Touches srv f r := by
  obtain ⟨reply, hret⟩ := hret
  have hroute : f.job.req.route.deletes_account = true := log_permitted hf hw
  have hout := hf.traced.outline (deletion_trace hroute) hf.keyed
  rw [hret] at hout
  obtain ⟨claims, hnames, hall⟩ := hout
  exact .deletion hroute hnames (hall _ (mem_wrote hw))

/-- The deletion of another account takes no session away. -/
theorem session_of_another_stays {db : Database} (hc : schema.Consistent db) {id : Uuid}
    (hmem : r ∈ db .user_session) (hne : r.user_id ≠ id) :
    r ∈ schema.effect (.remove (schema.doomed db .user_account id)) db .user_session := by
  have hstay : (Table.user_session, r.id) ∉ schema.doomed db .user_account id := by
    intro hgone
    obtain ⟨r₀, hr₀, hpk, k, hk, _, j, hcol, hparent⟩ :=
      Schema.doomed_parent hgone fun heq => by cases heq
    obtain rfl : r₀ = r := hc.eq_of_pk hr₀ hmem hpk
    obtain rfl := List.mem_singleton.mp hk
    have howner : UserSession.user_id r₀ = j := Option.some.inj hcol
    by_cases hj : j = id
    · exact hne (howner.trans hj)
    · -- an account points at nothing
      obtain ⟨_, _, _, k, hk, _⟩ := Schema.doomed_parent hparent fun heq => hj (by cases heq; rfl)
      cases hk
  have hrigid : schema.Rigid .user_session := rigid (by decide)
  exact Schema.mem_effect_remove.mpr ⟨r, hmem, hstay, hrigid _ r⟩

/-- **The rest is left alone.** -/
theorem untouched_stays (hr : Run (traffic srv) FreshIds (Traffic.start ext) past s)
    (hf : Genuine schema run_ext (Arrival.handler srv) past f) (hret : ∃ reply, f.rest = .ret reply)
    (hredo : redo schema f.log s.db = some db') (hmem : r ∈ s.db .user_session)
    (hnot : ¬ Touches srv f r) : r ∈ db' .user_session := by
  let J : Database → Prop := fun db => schema.Consistent db ∧ r ∈ db .user_session
  have hJ : J db' := by
    refine redo_invariant (J := J) hredo ⟨traffic_consistent hr, hmem⟩ ?_
    rintro w hw db hchk ⟨hc, hdb⟩
    refine ⟨Schema.consistent_admitted schema_regular hc hchk, ?_⟩
    -- an insert changes no row, an update of this one would touch it, and it goes only with its
    -- account
    have hpermitted := log_permitted hf hw
    cases w with
    | insert t row =>
      show r ∈ schema.effect (.insert t row) db .user_session
      by_cases ht : t = .user_session
      · subst ht
        exact Schema.mem_effect_insert.mpr (.inl hdb)
      · rwa [Schema.effect_insert_ne _ _ ht]
    | update t id patch =>
      show r ∈ schema.effect (.update t id patch) db .user_session
      by_cases ht : t = .user_session
      · subst ht
        have hid : r.id ≠ id := by
          rintro rfl
          exact hnot (touched_by_update hr hf hret hmem hw)
        exact Schema.mem_effect_update.mpr ⟨r, hdb, Schema.patched_of_ne hid⟩
      · rwa [Schema.effect_update_ne _ _ _ ht]
    | delete t id =>
      show r ∈ schema.effect (.remove (schema.doomed db t id)) db .user_session
      by_cases ht : t = .user_account
      · subst ht
        refine session_of_another_stays hc hdb ?_
        rintro rfl
        exact hnot (touched_by_deletion hf hret hw)
      · refine session_survives_delete ⟨ht, ?_⟩ hdb
        rintro rfl
        exact hpermitted
  exact hJ.2

end touches

/-! ### Everything is revoked -/

section everywhere
variable {ext : Outside} {past : TrafficPast Token} {s s' : Traffic Token} {f : InFlight Token}
  {n : Nat}

/-- The call of a logout of all that looks for the sessions of the account. -/
structure OpenSessionsRead (srv : Server Token) (f : InFlight Token) (claims : AccessTokenClaims)
    (e : Event Row Patch Uuid Answer) : Prop where
  names : Names srv f.job claims
  seen : e ∈ f.seen
  looks : e.op = .select .user_session (open_sessions claims.user_id)

/-- A commit that revokes a session leaves it revoked. -/
theorem revoked_after {db' : Database} (hf : Genuine schema run_ext (Arrival.handler srv) past f)
    (hroute : f.job.req.route = .logout_everywhere) {session_id : Uuid} {now : Nat}
    (hw : .update .user_session session_id (.revoke now) ∈ f.log)
    (hredo : redo schema f.log s.db = some db') :
    ∀ r' ∈ db' .user_session, UserSession.id r' = session_id → r'.revoked_at.isSome = true := by
  obtain ⟨ws, ws', hlog⟩ := List.append_of_mem hw
  have hpermitted : ∀ w ∈ ws', permits srv f.job.env f.job.req.route (.write w) := by
    intro w hw'
    refine log_permitted hf ?_
    rw [hlog]
    exact List.mem_append_right _ (List.mem_cons_of_mem _ hw')
  rw [hlog] at hredo
  obtain ⟨db₁, _, _, hrest⟩ := redo_split hredo
  refine redo_invariant (J := fun db : Database => ∀ r' ∈ db .user_session,
    UserSession.id r' = session_id → r'.revoked_at.isSome = true) hrest ?_ ?_
  · intro r' hr' hid
    obtain ⟨r, _, rfl⟩ := Schema.mem_effect_update.mp hr'
    have hself : UserSession.id r = session_id :=
      (schema.pk_patched .user_session session_id (.revoke now) r).symm.trans hid
    rw [Schema.patched_of_eq hself]
    rfl
  · intro w hw' db _ hdb r' hr' hid
    rcases session_from (hpermitted w hw') hr' with ⟨r, hr, hcarried, _⟩ | ⟨_, hsigns, _⟩
    · exact hcarried.revoked (hdb r hr (hcarried.id ▸ hid))
    · rw [hroute] at hsigns
      cases hsigns

/-- **The commit of a logout of all.** Every session of the account that was committed when
    it looked is revoked. -/
theorem everywhere_revoked (hr : Run (traffic srv) FreshIds (Traffic.start ext) past s)
    (hfresh : FreshIds past s (.commit n)) (hmove : traffic srv s (.commit n) s')
    (hflies : s.running n = some f) (hroute : f.job.req.route = .logout_everywhere) :
    ∃ claims e, OpenSessionsRead srv f claims e ∧ ∀ r ∈ e.rows .user_session,
      UserSession.user_id r = claims.user_id →
        ∀ r' ∈ s'.db .user_session, UserSession.id r' = r.id → r'.revoked_at.isSome = true := by
  have hf := (run_genuine hr fun _ => rfl).1 n f hflies
  obtain ⟨reply, hret, hredo⟩ : ∃ reply, f.rest = .ret reply ∧ redo schema f.log s.db = some s'.db := by
    cases hmove with
    | commit flies returned holds =>
      obtain rfl := Option.some.inj (hflies.symm.trans flies)
      exact ⟨_, returned, holds⟩
  have hout := hf.traced.outline (everywhere_trace hroute) hf.keyed
  rw [hret] at hout
  obtain ⟨claims, rows, later, gate, hnames, htrace⟩ := hout
  obtain ⟨e, he, hlooks, _, hcovers⟩ := hf.select_stands htrace.trace htrace.gate
  refine ⟨claims, e, ⟨hnames, he, hlooks⟩, fun r hr₀ howner r' hr' hid => ?_⟩
  cases hrev : UserSession.revoked_at r with
  | none =>
    -- it was open, and is revoked by this very request
    have hopen : open_sessions claims.user_id r = true := by
      unfold open_sessions
      rw [howner, hrev, beq_self_eq_true]
      rfl
    obtain ⟨us, hus, hpk⟩ := hcovers r hr₀ hopen
    have hw : .update .user_session r.id (.revoke f.job.env.now) ∈ f.log := by
      have hin := htrace.covers us hus
      have hsame : UserSession.id us = r.id := hpk
      rw [hsame] at hin
      refine mem_wrote_of_mem ?_
      rw [htrace.trace]
      exact List.mem_append_left _ hin
    exact revoked_after hf hroute hw hredo r' hr' hid
  | some revoked_at =>
    -- it was revoked before, and has been so since
    obtain ⟨x, hx, hrows⟩ := hf.dated e he
    rw [← hrows] at hr₀
    have hr₁ := hr.next (.commit n) hfresh hmove
    have hcarried := session_carried hr₁ (List.mem_cons_of_mem _ hx) hr₀ hr' hid
    exact hcarried.revoked (by rw [hrev]; rfl)

end everywhere

/-! ### Runs -/

section runs
variable {ext : Outside} {past : TrafficPast Token} {s s' : Traffic Token} {f : InFlight Token}

theorem rows_consistent (hr : Run (traffic srv) FreshIds (Traffic.start ext) past s)
    (hf : Genuine schema run_ext (Arrival.handler srv) past f) {e : Event Row Patch Uuid Answer}
    (he : e ∈ f.seen) : schema.Consistent e.rows := by
  obtain ⟨x, hx, hrows⟩ := hf.dated e he
  obtain ⟨later, earlier, rfl⟩ := List.append_of_mem hx
  obtain ⟨move, s₁⟩ := x
  rw [← hrows]
  exact traffic_consistent hr.split.1

theorem LivenessRead.seen {e : Event Row Patch Uuid Answer} {p : UserSession → Bool} {exc : Exc}
    (h : LivenessRead srv f e p exc) : e ∈ f.seen := by
  cases h with
  | gate guarded names seen => rw [seen]; exact List.mem_append_right _ List.mem_cons_self
  | refresh route seen unused => rw [seen]; exact List.mem_append_right _ List.mem_cons_self

/-- A request that returns has looked. -/
theorem returned_looked (hf : Genuine schema run_ext (Arrival.handler srv) past f)
    (hret : ∃ reply, f.rest = .ret reply)
    (hroute : f.job.req.route.guarded = true ∨ f.job.req.route.refreshes = true) :
    ∃ e p exc, LivenessRead srv f e p exc := by
  obtain ⟨reply, hret⟩ := hret
  rcases hroute with hguarded | hrefreshes
  · have hout := hf.traced.outline (guarded_trace hguarded) hf.keyed
    rw [hret] at hout
    obtain ⟨claims, us, account, gate, later, hgated, htrace⟩ := hout
    rcases List.eq_nil_or_concat f.seen with hnil | ⟨later', e, hseen⟩
    · rw [hnil, hgated.trace] at htrace
      simp at htrace
    · rw [List.concat_eq_append] at hseen
      exact ⟨e, _, _, .gate hguarded hgated.names hseen⟩
  · obtain ⟨refresh_token, hroute⟩ : ∃ refresh_token, f.job.req.route = .refresh refresh_token := by
      cases hroute : f.job.req.route <;> rw [hroute] at hrefreshes <;> first
        | exact ⟨_, rfl⟩
        | cases hrefreshes
    have hout := hf.traced.outline (refresh_trace hroute) hf.keyed
    rw [hret] at hout
    obtain ⟨us, ⟨later, p, htrace⟩, _, _⟩ := hout
    obtain ⟨later', rest, hseen, _, hrest⟩ := List.map_eq_append_iff.mp htrace
    obtain ⟨e, rest', rfl, _, hrest'⟩ := List.map_eq_cons_iff.mp hrest
    obtain ⟨e₀, rest'', rfl, hfirst, hnil⟩ := List.map_eq_cons_iff.mp hrest'
    rw [List.map_eq_nil_iff.mp hnil] at hseen
    refine ⟨e, _, _, .refresh hroute hseen ?_⟩
    rw [Event.eq_of_exchange hfirst]
    exact Event.handed_select

/-- A request that returns has found a session that was live. -/
theorem returned_live (hr : Run (traffic srv) FreshIds (Traffic.start ext) past s)
    (hf : Genuine schema run_ext (Arrival.handler srv) past f)
    (hret : ∃ reply, f.rest = .ret reply)
    (hroute : f.job.req.route.guarded = true ∨ f.job.req.route.refreshes = true) :
    ∃ e p exc, LivenessRead srv f e p exc ∧
      ∃ q ∈ e.rows .user_session, p q = true ∧ UserSession.is_active q f.job.env.now = true := by
  obtain ⟨e, p, exc, hread⟩ := returned_looked hf hret hroute
  refine ⟨e, p, exc, hread, ?_⟩
  by_contra hnone
  have hraise := dead_refused hf (rows_consistent hr hf hread.seen) hread fun q hq hp =>
    Bool.eq_false_of_not_eq_true fun hlive => hnone ⟨q, hq, hp, hlive⟩
  obtain ⟨reply, hret⟩ := hret
  rw [hraise] at hret
  cases hret

/-- A session that is over by the time of the request stays so. -/
theorem Carried.over {r r' : UserSession} (h : Carried r r') {now : Nat}
    (hover : r.is_active now = false) : r'.is_active now = false := by
  unfold UserSession.is_active at hover ⊢
  rw [Bool.and_eq_false_iff] at hover ⊢
  rcases hover with hrevoked | hexpired
  · refine .inl ?_
    have hsome := h.revoked (by rwa [← Option.not_isNone, Bool.not_eq_true'])
    rwa [← Option.not_isNone, Bool.not_eq_true'] at hsome
  · exact .inr (by rwa [h.expires_at])

/-- What holds of the sessions at any point of a run. -/
structure SessionsHold (srv : Server Token) (past : TrafficPast Token) (s : Traffic Token) :
    Prop where
  /-- a revocation stays, and the expiry is what it was -/
  carried : ∀ x ∈ past, ∀ r ∈ x.2.db .user_session, ∀ r' ∈ s.db .user_session,
    UserSession.id r' = UserSession.id r → Carried r r'
  /-- a request that looks at a session which was over before is refused -/
  refused : ∀ n f e p exc, s.running n = some f → LivenessRead srv f e p exc →
    ∀ later y before, past = later ++ y :: before → e.rows = y.2.db →
      ∀ x ∈ before, ∀ r ∈ x.2.db .user_session, UserSession.is_active r f.job.env.now = false →
        (∀ q ∈ e.rows .user_session, p q = true → UserSession.id q = UserSession.id r) →
          f.rest = .raise exc
  /-- and none is answered that has not looked at one which was live -/
  looked : ∀ f ∈ committed past, f.job.req.route.guarded = true ∨ f.job.req.route.refreshes = true →
    ∃ e p exc, LivenessRead srv f e p exc ∧
      ∃ q ∈ e.rows .user_session, p q = true ∧ UserSession.is_active q f.job.env.now = true
  /-- the next move touches the sessions of the acting account only -/
  apart : ∀ move s', FreshIds past s move → traffic srv s move s' → ∀ r ∈ s.db .user_session,
    r ∈ s'.db .user_session ∨ ∃ n f, move = .commit n ∧ s.running n = some f ∧ Touches srv f r
  /-- and if it commits a logout of all, they are all revoked -/
  everywhere : ∀ n f s', FreshIds past s (.commit n) → traffic srv s (.commit n) s' →
    s.running n = some f → f.job.req.route = .logout_everywhere →
      ∃ claims e, OpenSessionsRead srv f claims e ∧ ∀ r ∈ e.rows .user_session,
        UserSession.user_id r = claims.user_id → ∀ r' ∈ s'.db .user_session,
          UserSession.id r' = r.id → r'.revoked_at.isSome = true

/-- **Revoked for good.** In every run, however its requests interleave. -/
theorem revoked_for_good (hr : Run (traffic srv) FreshIds (Traffic.start ext) past s) :
    SessionsHold srv past s := by
  obtain ⟨hflying, hdone⟩ := run_genuine hr fun _ => rfl
  refine ⟨fun x hx r hmem r' hmem' => session_carried hr hx hmem hmem', ?_, ?_, ?_, ?_⟩
  · intro n f e p exc hflies hread later y before hpast hrows x hx r hmem hover hsame
    have hf := hflying n f hflies
    refine dead_refused hf (rows_consistent hr hf hread.seen) hread fun q hq hp => ?_
    have hid := hsame q hq hp
    rw [hrows] at hq
    rw [hpast] at hr
    exact (session_carried hr.split.1 hx hmem hq hid).over hover
  · intro f hf hroute
    exact returned_live hr (hdone f hf).1 (hdone f hf).2 hroute
  · intro move s' _ hmove r hmem
    rcases hmove.commits past with ⟨hdb, _⟩ | ⟨n, f, reply, rfl, hflies, hret, hredo, _⟩
    · exact .inl (by rwa [hdb])
    · by_cases htouches : Touches srv f r
      · exact .inr ⟨n, f, rfl, hflies, htouches⟩
      · exact .inl (untouched_stays hr (hflying n f hflies) ⟨reply, hret⟩ hredo hmem htouches)
  · intro n f s' hfresh hmove hflies hroute
    exact everywhere_revoked hr hfresh hmove hflies hroute

end runs

/-! ### Two sessions, and a logout of all -/

namespace Sample

def logged_out : List Line :=
  [⟨4, 104 * second, ⟨owner_token, .logout_everywhere⟩⟩,
    ⟨3, 102 * second, ⟨none, .login "a@x.org" "correct horse"⟩⟩,
    ⟨2, 101 * second, ⟨none, .login "a@x.org" "correct horse"⟩⟩,
    ⟨1, 100 * second, ⟨none, .register "a@x.org" "correct horse" none⟩⟩]

end Sample

theorem both_sessions_revoked :
    ∃ past s, Run (traffic Sample.secret_server) FreshIds (Traffic.start Sample.nothing_stored)
        past s ∧ (s.db .user_session).map (fun r : UserSession => r.revoked_at.isSome) = [true, true] ∧
      SessionsHold Sample.secret_server past s := by
  have hscript : (one_by_one Sample.secret_server Sample.nothing_stored
      (Sample.logged_out.map Sample.Line.arrival)).any (fun w =>
        decide ((w.db .user_session).map (fun r : UserSession => r.revoked_at.isSome) =
          [true, true])) = true := by
    decide +kernel
  obtain ⟨w, hw, hboth⟩ := (Option.any_eq_true _ _).mp hscript
  obtain ⟨past, hr, _⟩ := pairwise_one_by_one
    (R := fun b a : Arrival Payload => b.drawn_id ≠ a.drawn_id) (by decide) hw
  exact ⟨past, _, hr, of_decide_eq_true hboth, revoked_for_good hr⟩

end CounselReady
