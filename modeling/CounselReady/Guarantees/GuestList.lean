import CounselReady.Guarantees.CaseCabinet
import CounselReady.Guarantees.Challenges
import CounselReady.Guarantees.RegisteredPassword
import CounselReady.Specs.Lobby

/-! # The Guest List

    Sessions, tokens and the audit of sign-ins come to a list of guests and a
    visitors' book (`Specs.Lobby`), read off the rows (`lobby_of`). Every run of
    the server is explained by comings and goings, which are the answers that are
    committed, and the gate of the guarded routes follows the list: whoever is on
    it is let in, and whoever is not gets one and the same 401.
-/

namespace CounselReady

open Relational Framework Handler Prog

variable {Token : Type} {srv : Server Token} {env : Env} {db db' : Database}

/-! ### The lobby behind the rows -/

def guest_of (us : UserSession) : Guest := ⟨us.id, us.user_id, us.expires_at⟩

/-- The sessions that are not revoked, expired ones included. -/
def guests_of (db : Database) : List Guest :=
  ((db .user_session).filter (fun us : UserSession => us.revoked_at.isNone)).map guest_of

def book_line (e : AuthEvent) : BookLine := ⟨e.email, e.user_id, e.created_at, e.event_type⟩

def lobby_of (db : Database) : Lobby := ⟨guests_of db, (db .auth_event).map book_line⟩

/-- Who has come, when `account` has signed in. -/
def entrance (env : Env) (account : UserAccount) : Coming :=
  .enters ⟨env.uuid 0, account.id, refresh_expiry env.now⟩ account.email env.now

/-- Who comes and who goes in a step of the server, as its answer tells when the COMMIT
    goes through. -/
inductive Comes (srv : Server Token) (w : Committed) : Step Token → Coming → Prop where
  | entered {env : Env} {req : Request Token} {account : UserAccount}
      (route : req.route.signs_in = true) (holder : account ∈ w.db .user_account)
      (committed : env.commits = true)
      (success : handler_response srv env req w =
        .success req.route.success_status (tokens (issued_to srv env account))) :
      Comes srv w (.request env req) (entrance env account)
  | challenged {env : Env} {req : Request Token} {challenge_token : Token}
      (route : req.route.signs_in = true)
      (success : handler_response srv env req w =
        .success req.route.success_status (.mfa_challenge challenge_token)) :
      Comes srv w (.request env req) .nobody
  | left {env : Env} {credentials : Option Token} {auth : Authenticated}
      (account : SignedIn srv env credentials w.db auth) (committed : env.commits = true)
      (success : (handler_response srv env ⟨credentials, .logout⟩ w).succeeded = true) :
      Comes srv w (.request env ⟨credentials, .logout⟩) (.leaves auth.session_id)
  | all_left {env : Env} {credentials : Option Token} {auth : Authenticated}
      (account : SignedIn srv env credentials w.db auth) (committed : env.commits = true)
      (success : (handler_response srv env ⟨credentials, .logout_everywhere⟩ w).succeeded = true) :
      Comes srv w (.request env ⟨credentials, .logout_everywhere⟩) (.all_leave auth.account.id)
  | erased {env : Env} {req : Request Token} {auth : Authenticated}
      (route : req.route.deletes_account = true)
      (account : SignedIn srv env req.credentials w.db auth) (committed : env.commits = true)
      (success : (handler_response srv env req w).succeeded = true) :
      Comes srv w (.request env req) (.erased auth.account.id)
  | refused {env : Env} {req : Request Token} (refused : (handler_response srv env req w).refuses) :
      Comes srv w (.request env req) .nobody
  | lost {env : Env} {req : Request Token} (lost : env.commits = false) :
      Comes srv w (.request env req) .nobody
  | elsewhere {env : Env} {req : Request Token} (stays : req.route.signs_in = false)
      (one : req.route ≠ .logout) (all : req.route ≠ .logout_everywhere)
      (kept : req.route.deletes_account = false) : Comes srv w (.request env req) .nobody
  | ocr {env : Env} {document_id : Uuid} {engine : OcrEngine} :
      Comes srv w (.ocr env document_id engine) .nobody

/-! ### What a statement does to the lobby -/

theorem lobby_congr (hsessions : db' .user_session = db .user_session)
    (hevents : db' .auth_event = db .auth_event) : lobby_of db' = lobby_of db := by
  unfold lobby_of guests_of
  rw [hsessions, hevents]

/-- Sessions that change in nothing a guest is known by. -/
theorem guests_map {change : UserSession → UserSession}
    (hsame : ∀ us, guest_of (change us) = guest_of us)
    (hrevoked : ∀ us, (change us).revoked_at = us.revoked_at)
    (hrows : db' .user_session = (db .user_session).map change) : guests_of db' = guests_of db := by
  have hfilter : (fun us : UserSession => us.revoked_at.isNone) ∘ change =
      fun us : UserSession => us.revoked_at.isNone := by
    funext us
    simp only [Function.comp_apply, hrevoked us]
  have hguest : guest_of ∘ change = guest_of := funext hsame
  unfold guests_of
  rw [hrows, List.filter_map, hfilter, List.map_map, hguest]

/-- A revoked session is taken off the list. -/
theorem guests_revoked {revoked : UserSession → Bool} {change : UserSession → UserSession}
    (hchange : ∀ us, change us = if revoked us then { us with revoked_at := some env.now } else us)
    (hrows : db' .user_session = (db .user_session).map change) {p : Guest → Bool}
    (hp : ∀ us ∈ db .user_session, UserSession.revoked_at us = none →
      p (guest_of us) = !revoked us) :
    guests_of db' = (guests_of db).filter p := by
  unfold guests_of
  rw [hrows, List.filter_map, List.filter_map, List.filter_filter, List.map_map]
  have hkept : ∀ us ∈ db .user_session,
      ((fun us : UserSession => us.revoked_at.isNone) ∘ change) us =
        ((p ∘ guest_of) us && us.revoked_at.isNone) := by
    intro us hus
    simp only [Function.comp_apply, hchange us]
    cases hrev : us.revoked_at with
    | some at_ => split <;> simp [hrev]
    | none =>
      rw [hp us hus hrev]
      cases hgone : revoked us <;> simp [hrev]
  rw [List.filter_congr hkept]
  refine List.map_congr_left fun us hus => ?_
  -- what is left has not been changed
  obtain ⟨hmem, hboth⟩ := List.mem_filter.mp hus
  have hstay : revoked us = false := by
    simp only [Function.comp_apply, Bool.and_eq_true, Option.isNone_iff_eq_none] at hboth
    have hkeep := hp us hmem hboth.2
    rw [hboth.1] at hkeep
    simpa using hkeep.symm
  rw [Function.comp_apply, hchange us, hstay]
  rfl

theorem lobby_signed_in (account : UserAccount) :
    lobby_of (signed_in_rows srv env account.email account db) =
      (entrance env account).next (lobby_of db) := by
  have hsessions : signed_in_rows srv env account.email account db .user_session =
      db .user_session ++ [⟨env.uuid 0, account.id, hash_refresh_token srv env.refresh_token,
        refresh_expiry env.now, none, some env.now⟩] := by
    unfold signed_in_rows
    rw [Schema.effect_insert_ne _ _ (by decide)]
    exact Schema.effect_insert_self _ _ _
  have hevents : signed_in_rows srv env account.email account db .auth_event =
      db .auth_event ++ [⟨env.uuid 1, env.now, account.email, some account.id,
        .login_succeeded⟩] := by
    unfold signed_in_rows
    refine (Schema.effect_insert_self _ _ _).trans ?_
    rw [Schema.effect_insert_ne _ _ (by decide)]
  unfold lobby_of guests_of entrance Coming.next
  rw [hsessions, hevents, List.filter_append, List.map_append, List.map_append]
  rfl

/-- A refresh changes the digest of a session, and when it was last used. -/
theorem lobby_rotated {refresh_token : String} {us : UserSession}
    (h : Rotation srv env refresh_token db us db') : lobby_of db' = lobby_of db := by
  have hrows : db' .user_session = (db .user_session).map (schema.patched .user_session us.id
      (.rotate (hash_refresh_token srv env.refresh_token) env.now)) := by
    rw [h.result]
    refine (Schema.effect_update_self _ _ _ _).trans ?_
    rw [Schema.effect_insert_ne _ _ (by decide)]
  have hevents : db' .auth_event = db .auth_event := by
    rw [h.result, Schema.effect_update_ne _ _ _ (by decide), Schema.effect_insert_ne _ _ (by decide)]
  have hguests : guests_of db' = guests_of db := by
    refine guests_map (fun r => ?_) (fun r => ?_) hrows
    · unfold Schema.patched
      split <;> rfl
    · unfold Schema.patched
      split <;> rfl
  unfold lobby_of
  rw [hguests, hevents]

theorem struck_out_row (gone : List (Table × Uuid)) (e : AuthEvent) :
    schema.null_out gone .auth_event e =
      if e.user_id.any (fun j => decide ((Table.user_account, j) ∈ gone)) = true
      then { e with user_id := none } else e := by
  obtain ⟨id, created_at, email, user_id, event_type⟩ := e
  cases user_id <;> rfl

/-- No entry of the book goes with another row. -/
theorem events_stay {t : Table} (ht : Table.auth_event ≠ t) (id : Uuid) :
    schema.effect (.remove (schema.doomed db t id)) db .auth_event =
      (db .auth_event).map (schema.null_out (schema.doomed db t id) .auth_event) := by
  have hall : ∀ e ∈ db .auth_event,
      decide ((Table.auth_event, schema.pk .auth_event e) ∉ schema.doomed db t id) = true := by
    intro e _
    refine decide_eq_true (Schema.not_mem_doomed ht fun k hk => ?_)
    obtain rfl := List.mem_singleton.mp hk
    rfl
  rw [Schema.effect_remove, List.filter_eq_self.mpr hall]

/-- The account's sessions go, and the book has its name struck out. -/
theorem lobby_without_account (hc : schema.Consistent db) (id : Uuid) :
    lobby_of (without_account db id) = (Coming.erased id).next (lobby_of db) := by
  have hsessions : without_account db id .user_session =
      (db .user_session).filter (fun us : UserSession => decide (us.user_id ≠ id)) :=
    owned_without_account hc (t := .user_session) rfl (by decide)
  have hguests : guests_of (without_account db id) =
      (guests_of db).filter (fun g => decide (g.account ≠ id)) := by
    unfold guests_of
    rw [hsessions, List.filter_map, List.filter_filter, List.filter_filter]
    refine congrArg (List.map guest_of) (List.filter_congr fun us _ => ?_)
    exact Bool.and_comm _ _
  have hevents : (without_account db id .auth_event).map book_line =
      ((db .auth_event).map book_line).map (struck_out id) := by
    unfold without_account
    rw [events_stay (by decide), List.map_map, List.map_map]
    refine List.map_congr_left fun e _ => ?_
    have hgone : ∀ j, (Table.user_account, j) ∈ schema.doomed db .user_account id ↔ j = id :=
      fun j => ⟨fun h => (Prod.mk.inj (account_doomed h)).2,
        fun h => h ▸ Schema.mem_doomed_self _ _ _⟩
    rw [Function.comp_apply, Function.comp_apply, struck_out_row]
    unfold struck_out book_line
    cases huser : e.user_id with
    | none => simp [huser]
    | some j =>
      by_cases hj : j = id
      · simp [hgone, hj]
      · simp [huser, hgone, hj]
  unfold lobby_of
  rw [hguests, hevents]
  rfl

/-- Deleting what no row hangs off leaves the lobby as it is. -/
theorem lobby_without_leaf {t : Table} (hleaf : ∀ t', ∀ k ∈ schema.keys t', k.target ≠ t)
    (ht : t ≠ .user_session ∧ t ≠ .auth_event ∧ t ≠ .user_account) (id : Uuid) :
    lobby_of (schema.effect (.remove (schema.doomed db t id)) db) = lobby_of db := by
  have hsessions : schema.effect (.remove (schema.doomed db t id)) db .user_session =
      db .user_session := by
    rw [Schema.effect_remove_leaf schema_stratified schema_regular.ordered hleaf
      (rigid (by decide))]
    refine List.filter_eq_self.mpr fun us _ => decide_eq_true fun heq => ?_
    exact ht.1 (Prod.mk.inj heq).1.symm
  have hevents : schema.effect (.remove (schema.doomed db t id)) db .auth_event =
      db .auth_event := by
    rw [events_stay (Ne.symm ht.2.1)]
    -- nobody's name is struck out
    have hrest : ∀ e : AuthEvent,
        schema.null_out (schema.doomed db t id) .auth_event e = e := by
      intro e
      rw [struck_out_row, if_neg]
      intro hgone
      cases huser : e.user_id with
      | none => simp [huser] at hgone
      | some j =>
        simp only [huser, Option.any_some, decide_eq_true_eq] at hgone
        exact ht.2.2 (Prod.mk.inj (account_doomed hgone)).1.symm
    exact (List.map_congr_left fun e _ => hrest e).trans (List.map_id' _)
  exact lobby_congr hsessions hevents

/-- Neither a session nor an entry of the book hangs off a challenge. -/
theorem lobby_challenge_taken {credential : Credential} {record : PasskeyChallenge}
    (h : ChallengeTaken env credential db record db') : lobby_of db' = lobby_of db := by
  rw [h.result]
  exact lobby_without_leaf challenge_leaf (by decide) _

/-! ### Routes -/

section routes
variable {w : Committed} {credentials : Option Token}

/-- The row that a revocation has been carried out on. -/
theorem lobby_revoked {p : Guest → Bool} {revoked : UserSession → Bool}
    (hrows : db' .user_session = (db .user_session).map fun us : UserSession =>
      if revoked us then { us with revoked_at := some env.now } else us)
    (hevents : db' .auth_event = db .auth_event)
    (hp : ∀ us ∈ db .user_session, UserSession.revoked_at us = none →
      p (guest_of us) = !revoked us) :
    lobby_of db' = { lobby_of db with guests := (guests_of db).filter p } := by
  unfold lobby_of
  rw [guests_revoked (fun _ => rfl) hrows hp, hevents]

theorem serve_logout :
    (∃ auth, SignedIn srv env credentials w.db auth ∧
      (serve srv env ⟨credentials, .logout⟩ w).1.succeeded = true ∧
      lobby_of (serve srv env ⟨credentials, .logout⟩ w).2.db =
        (Coming.leaves auth.session_id).next (lobby_of w.db)) ∨
    (serve srv env ⟨credentials, .logout⟩ w).1.refuses := by
  let P : Response Token → Committed → Prop := fun resp w' =>
    (∃ auth, SignedIn srv env credentials w.db auth ∧ resp.succeeded = true ∧
      lobby_of w'.db = (Coming.leaves auth.session_id).next (lobby_of w.db)) ∨ resp.refuses
  have hP : P (serve srv env ⟨credentials, .logout⟩ w).1
      (serve srv env ⟨credentials, .logout⟩ w).2 := by
    have herr : ∀ e w', P (answer .logout (.error e)) w' :=
      fun e _ => .inr (answer_error_refuses _ _)
    refine serve_wps (wps_authenticated_bind (fun _ => herr _ _) fun auth hauth => ?_)
    obtain ⟨us, hus, hid, hactive⟩ := hauth.session
    refine wps_bind (wps_select_one_bind (herr _ _) (fun hnone => ?_) fun r _ _ hone => ?_)
    · have hmissing := hnone us hus
      simp [hid] at hmissing
    -- the one row found is the session behind the token, which is not revoked
    obtain rfl : us = r := by
      have hmem : us ∈ [r] := by
        rw [← hone]
        exact List.mem_filter.mpr ⟨hus, beq_iff_eq.mpr hid⟩
      exact List.mem_singleton.mp hmem
    have hopen : us.revoked_at.isNone = true := by
      simp only [UserSession.is_active, Bool.and_eq_true] at hactive
      exact hactive.1
    refine (wp_ite _ _).mpr ⟨fun _ => ?_, fun hno => absurd hopen hno⟩
    refine wps_execute (fun _ => herr _ _) fun _ => (wp_pure _).mpr ⟨fun _ => ?_, fun _ => herr _ _⟩
    refine .inl ⟨auth, hauth, rfl, ?_⟩
    have hrows : schema.effect (.update .user_session us.id (.revoke env.now)) w.db .user_session =
        (w.db .user_session).map fun us' : UserSession =>
          if decide (us'.id = us.id) then { us' with revoked_at := some env.now } else us' := by
      refine (Schema.effect_update_self _ _ _ _).trans (List.map_congr_left fun us' _ => ?_)
      by_cases hsame : UserSession.id us' = us.id
      · rw [Schema.patched_of_eq hsame, if_pos (decide_eq_true hsame)]
        rfl
      · rw [Schema.patched_of_ne hsame, if_neg (by simpa using hsame)]
    have hevents : schema.effect (.update .user_session us.id (.revoke env.now)) w.db .auth_event =
        w.db .auth_event := Schema.effect_update_ne _ _ _ (by decide)
    refine lobby_revoked hrows hevents fun us' _ _ => ?_
    by_cases hsame : us'.id = auth.session_id
    · simp [guest_of, hid, hsame]
    · simp [guest_of, hid, hsame]
  exact hP

/-- The rows after each of these sessions has been revoked. -/
theorem wps_revoke_all {rows : List UserSession} {s : Session} {Q : Except Exc Unit → Session → Prop}
    (herr : ∀ e s', Q (.error e) s')
    (hok : ∀ s', (s'.db .user_session = (s.db .user_session).map fun us : UserSession =>
        if rows.any (fun r => r.id == us.id) then { us with revoked_at := some env.now } else us) →
      s'.db .auth_event = s.db .auth_event → Q (.ok ()) s') :
    wps (revoke_all env rows) Q s := by
  induction rows generalizing s with
  | nil =>
    refine (wp_pure _).mpr (hok s ?_ rfl)
    simp
  | cons row rows ih =>
    refine wps_bind (wps_execute (fun _ => herr _ _) fun _ => ih fun s' hsessions hevents => ?_)
    have hkept : schema.effect (.update .user_session row.id (.revoke env.now)) s.db .auth_event =
        s.db .auth_event := Schema.effect_update_ne _ _ _ (by decide)
    refine hok s' ?_ (hevents.trans hkept)
    have hfirst : schema.effect (.update .user_session row.id (.revoke env.now)) s.db
        .user_session = (s.db .user_session).map
          (schema.patched .user_session row.id (.revoke env.now)) := Schema.effect_update_self _ _ _ _
    refine hsessions.trans ((congrArg (List.map _) hfirst).trans ?_)
    rw [List.map_map]
    refine List.map_congr_left fun us _ => ?_
    by_cases hid : UserSession.id us = row.id
    · -- revoked here, and perhaps once more with the same time
      rw [Function.comp_apply, Schema.patched_of_eq hid]
      have hany : (row :: rows).any (fun r => r.id == us.id) = true := by simp [hid]
      rw [if_pos hany]
      split <;> rfl
    · rw [Function.comp_apply, Schema.patched_of_ne hid]
      have hany : (row :: rows).any (fun r => r.id == us.id) =
          rows.any (fun r => r.id == us.id) := by
        simp [Ne.symm hid]
      rw [hany]

theorem serve_logout_everywhere (hc : schema.Consistent w.db) :
    (∃ auth, SignedIn srv env credentials w.db auth ∧
      (serve srv env ⟨credentials, .logout_everywhere⟩ w).1.succeeded = true ∧
      lobby_of (serve srv env ⟨credentials, .logout_everywhere⟩ w).2.db =
        (Coming.all_leave auth.account.id).next (lobby_of w.db)) ∨
    (serve srv env ⟨credentials, .logout_everywhere⟩ w).1.refuses := by
  let P : Response Token → Committed → Prop := fun resp w' =>
    (∃ auth, SignedIn srv env credentials w.db auth ∧ resp.succeeded = true ∧
      lobby_of w'.db = (Coming.all_leave auth.account.id).next (lobby_of w.db)) ∨ resp.refuses
  have hP : P (serve srv env ⟨credentials, .logout_everywhere⟩ w).1
      (serve srv env ⟨credentials, .logout_everywhere⟩ w).2 := by
    have herr : ∀ e w', P (answer .logout_everywhere (.error e)) w' :=
      fun e _ => .inr (answer_error_refuses _ _)
    refine serve_wps (wps_current_user_bind (fun _ => herr _ _) fun auth hauth => ?_)
    refine wps_select_bind (wps_bind (wps_revoke_all (fun _ _ => herr _ _) ?_))
    intro s' hsessions hevents
    refine (wp_pure _).mpr ⟨fun _ => .inl ⟨auth, hauth, rfl, ?_⟩, fun _ => herr _ _⟩
    refine lobby_revoked hsessions hevents fun us hus hopen => ?_
    -- of the open sessions, those found are the account's
    by_cases howner : us.user_id = auth.account.id
    · have hany : (((w.begin env).db .user_session).filter (fun s : UserSession =>
          s.user_id == auth.account.id && s.revoked_at.isNone)).any (fun r => r.id == us.id) =
            true := by
        refine List.any_eq_true.mpr ⟨us, List.mem_filter.mpr ⟨hus, ?_⟩, beq_self_eq_true _⟩
        simp [howner, hopen]
      rw [hany]
      simp [guest_of, howner]
    · have hnone : (((w.begin env).db .user_session).filter (fun s : UserSession =>
          s.user_id == auth.account.id && s.revoked_at.isNone)).any (fun r => r.id == us.id) =
            false := by
        refine List.any_eq_false.mpr fun r hr hsame => howner ?_
        obtain ⟨hmem, hboth⟩ := List.mem_filter.mp hr
        obtain rfl : r = us := hc.eq_of_pk hmem hus (eq_of_beq hsame)
        exact eq_of_beq (Bool.and_eq_true_iff.mp hboth).1
      rw [hnone]
      simp [guest_of, howner]
  exact hP

/-- A sign-in lets one account in, asks for more, or is refused. -/
theorem serve_signed_in {req : Request Token} (hroute : req.route.signs_in = true) :
    (∃ account ∈ w.db .user_account,
      (serve srv env req w).1 =
        .success req.route.success_status (tokens (issued_to srv env account)) ∧
      lobby_of (serve srv env req w).2.db = (entrance env account).next (lobby_of w.db)) ∨
    ((∃ challenge_token, (serve srv env req w).1 =
        .success req.route.success_status (.mfa_challenge challenge_token)) ∧
      lobby_of (serve srv env req w).2.db = lobby_of w.db) ∨
    (serve srv env req w).1.refuses := by
  let P : Response Token → Committed → Prop := fun resp w' =>
    (∃ account ∈ w.db .user_account,
      resp = .success req.route.success_status (tokens (issued_to srv env account)) ∧
      lobby_of w'.db = (entrance env account).next (lobby_of w.db)) ∨
    ((∃ challenge_token, resp = .success req.route.success_status (.mfa_challenge challenge_token)) ∧
      lobby_of w'.db = lobby_of w.db) ∨ resp.refuses
  have herr : ∀ e w', P (answer req.route (.error e)) w' :=
    fun e _ => .inr (.inr (answer_error_refuses _ _))
  -- the two rows of a sign-in, over rows with the same lobby
  have hin : ∀ {account db} {s' : Session}, account ∈ w.db .user_account →
      lobby_of db = lobby_of w.db →
      s'.db = signed_in_rows srv env (UserAccount.email account) account db →
      P (answer req.route (.ok (tokens (issued_to srv env account)))) ⟨s'.db, s'.ext⟩ := by
    intro account db s' hacc hsame hdb
    refine .inl ⟨account, hacc, rfl, ?_⟩
    show lobby_of s'.db = _
    rw [hdb, lobby_signed_in, hsame]
  have hP : P (serve srv env req w).1 (serve srv env req w).2 := by
    obtain ⟨credentials, route⟩ := req
    cases route <;> try exact absurd hroute Bool.false_ne_true
    case login email password =>
      refine serve_wps (wps_login_exact (fun _ _ => herr _ _) ?_ ?_)
      · intro account s' _ _ hre
        refine ⟨fun _ => .inr (.inl ⟨⟨_, rfl⟩, ?_⟩), fun _ => herr _ _⟩
        exact lobby_congr (hre.other (by decide)) (hre.other (by decide))
      · intro account db s' hverified _ hre hdb
        refine ⟨fun _ => hin hverified.mem ?_ hdb, fun _ => herr _ _⟩
        exact lobby_congr (hre.other (by decide)) (hre.other (by decide))
    case mfa_verify challenge_token code =>
      refine serve_wps (wps_mfa_verify_exact (fun _ _ => herr _ _) ?_)
      intro account db s' hacc _ _ haccepted hdb
      refine ⟨fun _ => hin hacc ?_ hdb, fun _ => herr _ _⟩
      exact lobby_congr (haccepted.other (by decide) (by decide))
        (haccepted.other (by decide) (by decide))
    case passkey_login_complete credential =>
      refine serve_wps (wps_passkey_login_complete_exact (fun _ _ => herr _ _) ?_)
      intro record challenge db passkey account count s' htaken _ hverified hdb
      have haccounts : db .user_account = w.db .user_account :=
        htaken.other (by decide) (rigid (by decide))
      have hacc : account ∈ w.db .user_account := haccounts ▸ hverified.holder
      refine ⟨fun _ => hin hacc ?_ hdb, fun _ => herr _ _⟩
      refine (lobby_congr ?_ ?_).trans (lobby_challenge_taken htaken)
      · exact Schema.effect_update_ne _ _ _ (by decide)
      · exact Schema.effect_update_ne _ _ _ (by decide)
  exact hP

/-- The other routes, and OCR, write nothing the lobby is read off. -/
theorem run_outside_lobby {s : Step Token}
    (hroute : ∀ env req, s = .request env req → req.route.signs_in = false ∧
      req.route.revokes = false ∧ req.route.deletes_account = false) :
    lobby_of (s.run srv w).db = lobby_of w.db := by
  -- what may be written: no session, no entry of the book, and no account is deleted
  have hinsert : ∀ t row, s.permits srv (.write (.insert t row)) →
      t ≠ .user_session ∧ t ≠ .auth_event := by
    intro t row hp
    cases s with
    | ocr env document_id engine => exact hp.elim
    | request env req =>
      obtain ⟨hin, _, _⟩ := hroute env req rfl
      constructor
      · rintro rfl
        exact absurd (hin.symm.trans hp.2.1) Bool.false_ne_true
      · rintro rfl
        exact absurd (hin.symm.trans hp.2) Bool.false_ne_true
  have hupdate : ∀ t id patch, s.permits srv (.write (.update t id patch)) →
      t ≠ .user_session ∧ t ≠ .auth_event := by
    intro t id patch hp
    cases s with
    | ocr env document_id engine =>
      constructor <;> rintro rfl <;> exact hp.elim
    | request env req =>
      obtain ⟨_, hrevokes, _⟩ := hroute env req rfl
      constructor
      · rintro rfl
        cases patch with
        | revoke now => exact absurd (hrevokes.symm.trans hp) Bool.false_ne_true
        | rotate digest now =>
          have hrefreshes : req.route.refreshes = true := hp.1
          have hroute : req.route.revokes = true := by
            cases hreq : req.route <;> rw [hreq] at hrefreshes <;> first
              | rfl
              | cases hrefreshes
          exact absurd (hrevokes.symm.trans hroute) Bool.false_ne_true
      · rintro rfl
        exact hp.elim
  refine Step.run_db_invariant (J := fun db => lobby_of db = lobby_of w.db) ?_ rfl
  intro wr db hp _ hdb
  refine Eq.trans ?_ hdb
  cases wr with
  | insert t row =>
    obtain ⟨hs, he⟩ := hinsert t row hp
    exact lobby_congr (Schema.effect_insert_ne _ _ hs) (Schema.effect_insert_ne _ _ he)
  | update t id patch =>
    obtain ⟨hs, he⟩ := hupdate t id patch hp
    exact lobby_congr (Schema.effect_update_ne _ _ _ hs) (Schema.effect_update_ne _ _ _ he)
  | delete t id =>
    cases s with
    | ocr env document_id engine => exact hp.elim
    | request env req =>
      obtain ⟨_, _, hkept⟩ := hroute env req rfl
      have hpermitted : permits_delete req.route t := hp
      have htable : t ≠ .user_session ∧ t ≠ .auth_event ∧ t ≠ .user_account := by
        refine ⟨?_, ?_, ?_⟩ <;> rintro rfl
        · exact hpermitted
        · exact hpermitted
        · exact absurd (hkept.symm.trans hpermitted) Bool.false_ne_true
      exact lobby_without_leaf ((leaf_of_permitted hpermitted).resolve_left htable.2.2) htable id

end routes

/-! ### One step -/

/-- A deletion that went through, as the lobby sees it. -/
theorem serve_erased_lobby {w : Committed} {req : Request Token}
    (hroute : req.route.deletes_account = true) (hc : schema.Consistent w.db) :
    (∃ auth, SignedIn srv env req.credentials w.db auth ∧
      (serve srv env req w).1.succeeded = true ∧
      lobby_of (serve srv env req w).2.db = (Coming.erased auth.account.id).next (lobby_of w.db)) ∨
    (serve srv env req w).1.refuses := by
  rcases @serve_erased _ srv env w _ hroute hc with
    ⟨auth, db, hauth, hcdb, hother, hsuccess, hdb⟩ | hrefused
  · refine .inl ⟨auth, hauth, hsuccess, ?_⟩
    have hsame : lobby_of db = lobby_of w.db :=
      lobby_congr (hother _ (by decide) (by decide)) (hother _ (by decide) (by decide))
    rw [hdb, lobby_without_account hcdb, hsame]
  · exact .inr hrefused

/-- **Step lemma.** Somebody comes or goes, or nobody does. -/
theorem comes_step {w : Committed} (hc : schema.Consistent w.db) (s : Step Token) :
    ∃ coming, Comes srv w s coming ∧
      lobby_of (s.run srv w).db = coming.next (lobby_of w.db) := by
  cases s with
  | ocr env document_id engine =>
    refine ⟨.nobody, .ocr, run_outside_lobby fun env req h => ?_⟩
    cases h
  | request env req =>
    -- a refusal leaves the rows as they are
    have hrefused : (serve srv env req w).1.refuses → ∃ coming,
        Comes srv w (.request env req) coming ∧
          lobby_of ((Step.request env req).run srv w).db = coming.next (lobby_of w.db) := by
      intro h
      have hsame : ((Step.request env req).run srv w).db = w.db := serve_refused h
      have hcomes : Comes srv w (.request env req) .nobody := by
        rcases serve_refuses_iff.mp h with hlost | hrefuses
        · exact .lost hlost
        · exact .refused hrefuses
      refine ⟨.nobody, hcomes, ?_⟩
      rw [hsame]
      rfl
    by_cases hin : req.route.signs_in = true
    · rcases @serve_signed_in _ srv env w req hin with
        ⟨account, hacc, hsuccess, hlobby⟩ | ⟨⟨token, hsuccess⟩, hlobby⟩ | h
      · obtain ⟨hcommits, hreply⟩ := serve_success_iff.mp hsuccess
        exact ⟨_, .entered hin hacc hcommits hreply, hlobby⟩
      · exact ⟨_, .challenged hin (serve_success_iff.mp hsuccess).2, hlobby⟩
      · exact hrefused h
    rw [Bool.not_eq_true] at hin
    by_cases hdeletes : req.route.deletes_account = true
    · rcases @serve_erased_lobby _ srv env w req hdeletes hc with ⟨auth, hauth, hsuccess, hlobby⟩ | h
      · obtain ⟨hcommits, hdone⟩ := serve_succeeded_iff.mp hsuccess
        exact ⟨_, .erased hdeletes hauth hcommits hdone, hlobby⟩
      · exact hrefused h
    rw [Bool.not_eq_true] at hdeletes
    by_cases hrevokes : req.route.revokes = true
    · obtain ⟨credentials, route⟩ := req
      cases route <;> try exact absurd hrevokes Bool.false_ne_true
      case refresh refresh_token =>
        rcases serve_refresh srv env credentials refresh_token w with ⟨us, hrotation⟩ | ⟨h, _⟩
        · refine ⟨.nobody, .elsewhere rfl ?_ ?_ rfl, lobby_rotated hrotation⟩
          · intro heq
            cases heq
          · intro heq
            cases heq
        · exact hrefused h
      case logout =>
        rcases @serve_logout _ srv env w credentials with ⟨auth, hauth, hsuccess, hlobby⟩ | h
        · obtain ⟨hcommits, hdone⟩ := serve_succeeded_iff.mp hsuccess
          exact ⟨_, .left hauth hcommits hdone, hlobby⟩
        · exact hrefused h
      case logout_everywhere =>
        rcases @serve_logout_everywhere _ srv env w credentials hc with
          ⟨auth, hauth, hsuccess, hlobby⟩ | h
        · obtain ⟨hcommits, hdone⟩ := serve_succeeded_iff.mp hsuccess
          exact ⟨_, .all_left hauth hcommits hdone, hlobby⟩
        · exact hrefused h
    rw [Bool.not_eq_true] at hrevokes
    refine ⟨.nobody, .elsewhere hin ?_ ?_ hdeletes, run_outside_lobby fun env' req' heq => ?_⟩
    · intro hroute
      rw [hroute] at hrevokes
      cases hrevokes
    · intro hroute
      rw [hroute] at hrevokes
      cases hrevokes
    · obtain ⟨_, rfl⟩ := Step.request.inj heq
      exact ⟨hin, hrevokes, hdeletes⟩

/-! ### The run -/

theorem lobby_simulates (C : History Token → Step Token → Prop) :
    Simulates (fun w s w' => w' = s.run srv w) (fun past w s => C ⟨past, w⟩ s)
      (fun past w => Reaches srv C .start ⟨past, w⟩) (fun w => lobby_of w.db) (Comes srv)
      Lobby.Does := by
  refine ⟨fun past w s w' hreach _ hw => ?_⟩
  subst hw
  exact comes_step hreach.consistent s

/-- **Refinement.** In every run, the steps that have been answered as a sign-in, a logout, a
    logout of all or a deletion, and committed, are comings and goings that leave the guests
    and the book behind the rows; no other step touches either. -/
theorem sessions_refine_lobby {C : History Token → Step Token → Prop} {h : History Token}
    (hr : Reaches srv C .start h) :
    ∃ plain, Run Lobby.Does unrestricted Lobby.empty plain (lobby_of h.world.db) ∧
      Explains (fun w => lobby_of w.db) (Comes srv) h.past plain :=
  (lobby_simulates C).run hr.labelled fun _ _ hrun => reaches_of_labelled hrun

/-! ### The gate -/

/-- No route switches an account off. -/
theorem Reaches.all_active {C : History Token → Step Token → Prop} {h : History Token}
    (hr : Reaches srv C .start h) : ∀ a ∈ h.world.db .user_account, a.active = true := by
  refine hr.invariant (I := fun h => ∀ a ∈ h.world.db .user_account, a.active = true) ?_
    fun h s hreach hactive _ a ha => ?_
  · intro a ha
    cases ha
  · have hfrom := accounts_step hreach.consistent a ha
    cases hfrom with
    | kept mem => exact hactive a mem
    | registered address length => rfl
    | rehashed mem verified =>
      have hold := hactive _ mem
      exact hold

/-- The request shows the pass of this guest, whose time is not up. -/
structure ShowsPass (srv : Server Token) (env : Env) (credentials : Option Token) (guest : Guest) :
    Prop where
  token : ∃ token, credentials = some token ∧ ∃ claims,
    decode_access_token srv token env.now = some claims ∧
      claims.session_id = guest.session_id ∧ claims.user_id = guest.account
  in_time : env.now < guest.expires_at

/-- A token of the server is for the account that the session behind it belongs to. -/
theorem owner_of_claims {h : History Token} (hr : Reaches srv (Honest srv) .start h)
    {req : Request Token} (hhonest : Honest srv h (.request env req)) {token : Token}
    (htoken : req.credentials = some token) {claims : AccessTokenClaims}
    (hclaims : decode_access_token srv token env.now = some claims) {us : UserSession}
    (hus : us ∈ h.world.db .user_session) (hid : us.id = claims.session_id) :
    us.user_id = claims.user_id := by
  obtain ⟨p, hdecode, _, hsub, hsid, _⟩ := decode_access_token_eq_some.mp hclaims
  have hpresented : token ∈ req.presented :=
    List.mem_append_left _ (by rw [htoken]; exact List.mem_singleton_self token)
  have hsigned := hhonest.2 token hpresented p hdecode
  rw [hr.owners_signed p hsigned _ hsid us hus hid, hsub]

/-- Whoever is signed in is on the list, and whoever on it shows their pass is signed in. -/
theorem signed_in_iff {h : History Token} (hr : Reaches srv (Honest srv) .start h)
    {req : Request Token} (hhonest : Honest srv h (.request env req)) :
    (∃ auth, SignedIn srv env req.credentials h.world.db auth) ↔
      ∃ guest ∈ guests_of h.world.db, ShowsPass srv env req.credentials guest := by
  constructor
  · rintro ⟨auth, hauth⟩
    obtain ⟨token, htoken, claims, hclaims, huser, hsession⟩ := hauth.token
    obtain ⟨us, hus, hid, hactive⟩ := hauth.session
    simp only [UserSession.is_active, Bool.and_eq_true, decide_eq_true_eq] at hactive
    have hguest : guest_of us ∈ guests_of h.world.db :=
      List.mem_map_of_mem (List.mem_filter.mpr ⟨hus, hactive.1⟩)
    have hid' : us.id = claims.session_id := hid.trans hsession.symm
    have howner := owner_of_claims hr hhonest htoken hclaims hus hid'
    exact ⟨guest_of us, hguest, ⟨token, htoken, claims, hclaims, hid'.symm, howner.symm⟩, hactive.2⟩
  · rintro ⟨guest, hguest, hshows⟩
    obtain ⟨us, hus, rfl⟩ := List.mem_map.mp hguest
    obtain ⟨hmem, hopen⟩ := List.mem_filter.mp hus
    obtain ⟨token, htoken, claims, hclaims, hsession, huser⟩ := hshows.token
    -- the account of a session is there, and no account is switched off
    obtain ⟨account, hacc, hid⟩ := hr.consistent.target (t := .user_session) hmem
      (k := belongs .user_account UserSession.user_id) List.mem_cons_self rfl
    have hactive : us.is_active env.now = true := by
      simp only [UserSession.is_active, Bool.and_eq_true, decide_eq_true_eq]
      exact ⟨hopen, hshows.in_time⟩
    refine ⟨⟨account, us.id⟩, ⟨token, htoken, claims, hclaims, huser.trans hid.symm, hsession⟩,
      ⟨us, hmem, rfl, hactive⟩, hacc, hr.all_active account hacc⟩

/-- `GET /me` answers whoever is signed in. -/
theorem serve_me {w : Committed} (hc : schema.Consistent w.db) (hcommits : env.commits = true)
    {credentials : Option Token} {auth : Authenticated}
    (hauth : SignedIn srv env credentials w.db auth) :
    (serve srv env ⟨credentials, .me⟩ w).1 = .success 200 (.account (account_response auth.account)) := by
  let P : Response Token → Committed → Prop := fun resp _ =>
    resp = .success 200 (.account (account_response auth.account))
  have hP : P (serve srv env ⟨credentials, .me⟩ w).1 (serve srv env ⟨credentials, .me⟩ w).2 := by
    refine serve_wps (wps_current_user_admitted hc hauth ((wp_pure _).mpr ⟨fun _ => rfl, ?_⟩))
    intro hlost
    rw [hcommits] at hlost
    cases hlost
  exact hP

/-- Whoever is not signed in gets one and the same answer, whatever they ask for. -/
theorem serve_unauthenticated {w : Committed} (hc : schema.Consistent w.db) {req : Request Token}
    (hguarded : req.route.guarded = true)
    (hnot : ¬ ∃ auth, SignedIn srv env req.credentials w.db auth) :
    (serve srv env req w).1 =
        .refused ⟨401, .text "Not authenticated", [("WWW-Authenticate", "Bearer")]⟩ ∧
      (serve srv env req w).2.db = w.db := by
  obtain ⟨f, hf⟩ : ∃ f, respond srv env req = authenticated srv env req.credentials >>= f :=
    respond_guarded hguarded
  let P : Response Token → Committed → Prop := fun resp w' =>
    resp = .refused ⟨401, .text "Not authenticated", [("WWW-Authenticate", "Bearer")]⟩ ∧
      w'.db = w.db
  have hP : P (serve srv env req w).1 (serve srv env req w).2 := by
    refine serve_wps ?_
    rw [hf]
    exact wps_authenticated_exact hc (fun _ => ⟨rfl, rfl⟩) fun auth hauth => absurd ⟨auth, hauth⟩ hnot
  exact hP

/-- **The gate.** A run is a sequence of comings and goings, each of them committed, such that,
    whoever makes the next request: they are signed in when they show, in a token that has not
    expired, the pass of a guest who has come in, whose time is not up, and who has not been
    seen out since. Then `GET /me` names the account;
    otherwise every guarded route gives the same 401, and nothing changes. -/
theorem gate_follows_guest_list {h : History Token} (hr : Reaches srv (Honest srv) .start h) :
    ∃ plain, Explains (fun w => lobby_of w.db) (Comes srv) h.past plain ∧
      ∀ env req, Honest srv h (.request env req) →
        ((∃ auth, SignedIn srv env req.credentials h.world.db auth) ↔
          ∃ guest, ShowsPass srv env req.credentials guest ∧ StillHere guest plain) ∧
        (∀ guest, ShowsPass srv env req.credentials guest → StillHere guest plain →
          env.commits = true → ∃ account ∈ h.world.db .user_account,
            UserAccount.id account = guest.account ∧
            (serve srv env ⟨req.credentials, .me⟩ h.world).1 =
              .success 200 (.account (account_response account))) ∧
        ((¬ ∃ guest, ShowsPass srv env req.credentials guest ∧ StillHere guest plain) →
          req.route.guarded = true →
          (serve srv env req h.world).1 =
              .refused ⟨401, .text "Not authenticated", [("WWW-Authenticate", "Bearer")]⟩ ∧
            (serve srv env req h.world).2.db = h.world.db) := by
  obtain ⟨plain, hplain, hexplains⟩ :=
    (lobby_simulates (Honest srv)).run hr.labelled fun _ _ hrun => reaches_of_labelled hrun
  refine ⟨plain, hexplains, fun env req hhonest => ?_⟩
  have hhere : ∀ guest, guest ∈ guests_of h.world.db ↔ StillHere guest plain :=
    fun guest => here_iff hplain
  have hiff : (∃ auth, SignedIn srv env req.credentials h.world.db auth) ↔
      ∃ guest, ShowsPass srv env req.credentials guest ∧ StillHere guest plain := by
    rw [signed_in_iff hr hhonest]
    exact exists_congr fun guest => by rw [hhere, and_comm]
  refine ⟨hiff, fun guest hshows hstill hcommits => ?_, fun hnobody hguarded => ?_⟩
  · obtain ⟨auth, hauth⟩ := hiff.mpr ⟨guest, hshows, hstill⟩
    obtain ⟨token, htoken, claims, hclaims, huser, _⟩ := hauth.token
    obtain ⟨token', htoken', claims', hclaims', _, haccount⟩ := hshows.token
    -- the one token names the guest's account
    rw [htoken] at htoken'
    cases htoken'
    rw [hclaims] at hclaims'
    cases hclaims'
    exact ⟨auth.account, hauth.account, huser.symm.trans haccount,
      serve_me hr.consistent hcommits hauth⟩
  · exact serve_unauthenticated hr.consistent hguarded fun hin => hnobody (hiff.mp hin)

/-! ### Two visits -/

/-- One account signs in twice, and logs out of the first session. -/
def two_visits : List Sample.Line :=
  [⟨4, 103 * second, ⟨Sample.bearer (101 * second), .logout⟩⟩,
    ⟨3, 102 * second, ⟨none, .login "a@x.org" "correct horse"⟩⟩,
    ⟨2, 101 * second, ⟨none, .login "a@x.org" "correct horse"⟩⟩,
    ⟨1, 100 * second, ⟨none, .register "a@x.org" "correct horse" none⟩⟩]

/-- Both visits are in the book, and one guest is in. -/
def one_guest_left : Prop :=
  Sample.honest two_visits = true ∧
    guests_of (Sample.play two_visits).world.db =
      [⟨12288#128, 4096#128, refresh_expiry (102 * second)⟩] ∧
    (lobby_of (Sample.play two_visits).world.db).book =
      [⟨"a@x.org", some 4096#128, 101 * second, .login_succeeded⟩,
        ⟨"a@x.org", some 4096#128, 102 * second, .login_succeeded⟩]

instance : Decidable one_guest_left := inferInstanceAs (Decidable (_ ∧ _ ∧ _))

theorem two_visits_in_the_book :
    one_guest_left ∧
    ∃ plain, Run Lobby.Does unrestricted Lobby.empty plain
        (lobby_of (Sample.play two_visits).world.db) ∧
      Explains (fun w => lobby_of w.db) (Comes Sample.server) (Sample.play two_visits).past
        plain := by
  have hrun : one_guest_left := by decide +kernel
  exact ⟨hrun, sessions_refine_lobby (Sample.reaches_play hrun.1)⟩

/-- The token of the visit that is not over. -/
def second_pass : Option Payload := some (access_claims 4096#128 12288#128 (102 * second))

def me_at_five (credentials : Option Payload) : Response Payload :=
  (serve Sample.server (Sample.env 5 (104 * second)) ⟨credentials, .me⟩
    (Sample.play two_visits).world).1

/-- The first token is turned away, and the second is let in: its guest is still here. -/
theorem second_visit_goes_on :
    (me_at_five (Sample.bearer (101 * second))).succeeded = false ∧
    (me_at_five second_pass).succeeded = true ∧
    ∃ plain guest, Explains (fun w => lobby_of w.db) (Comes Sample.server)
        (Sample.play two_visits).past plain ∧
      ShowsPass Sample.server (Sample.env 5 (104 * second)) second_pass guest ∧
      StillHere guest plain := by
  have hrun : Sample.honest two_visits = true ∧
      (Sample.unseen (Sample.play two_visits) 5 &&
        Sample.authentic (Sample.play two_visits) (104 * second) ⟨second_pass, .me⟩) = true ∧
      (me_at_five (Sample.bearer (101 * second))).succeeded = false ∧
      (me_at_five second_pass).succeeded = true := by
    decide +kernel
  obtain ⟨hhonest, hnext, hfirst, hsecond⟩ := hrun
  obtain ⟨plain, hexplains, hgate⟩ := gate_follows_guest_list (Sample.reaches_play hhonest)
  have hnow : Honest Sample.server (Sample.play two_visits)
      (.request (Sample.env 5 (104 * second)) ⟨second_pass, .me⟩) :=
    Sample.honest_of_check (by decide) rfl rfl hnext
  obtain ⟨_, _, hnobody⟩ := hgate _ _ hnow
  refine ⟨hfirst, hsecond, plain, ?_⟩
  -- were nobody here, the answer would be the 401
  by_contra hnone
  have hrefused := (hnobody (fun hsome => ?_) rfl).1
  · have hanswer : (me_at_five second_pass).succeeded = false := congrArg Response.succeeded hrefused
    rw [hsecond] at hanswer
    cases hanswer
  · obtain ⟨guest, hshows, hstill⟩ := hsome
    exact hnone ⟨guest, hexplains, hshows, hstill⟩

end CounselReady
