import CounselReady.Sample
import CounselReady.Framework.Run
import CounselReady.Specs.Minting
import CounselReady.Specs.Sessions

/-! # A Session of the Very Account

    `authenticated` looks the session up by `sid` and the account by `sub`, and
    never asks whether the one belongs to the other. It does, because of how
    tokens come about: whatever the server has ever signed for a session names
    the owner of that session (`OwnersSigned`), and no step changes an owner.
-/

namespace CounselReady

open Relational Framework Handler Prog

variable {Token : Type} {srv : Server Token}

/-! ### Runs -/

/-- What happens to the server: a step of its own, or an account is switched on or off
    from outside. No route does the latter. -/
inductive Action (Token : Type) where
  | serve (s : Step Token)
  | set_active (account_id : Uuid) (active : Bool)

def switched (account_id : Uuid) (active : Bool) (a : UserAccount) : UserAccount :=
  if a.id = account_id then { a with active := active } else a

def Action.run (srv : Server Token) : Action Token → Committed → Committed
  | .serve s, w => s.run srv w
  | .set_active account_id active, w =>
      ⟨w.db.set .user_account ((w.db .user_account).map (switched account_id active)), w.ext⟩

/-- One action, as a step relation. -/
def acts (srv : Server Token) (w : Committed) (a : Action Token) (w' : Committed) : Prop :=
  w' = a.run srv w

/-- `uuid4` gives no id that a session has, or that a token has been signed for. -/
structure NewIds (w : Committed) (env : Env) : Prop where
  sessions : ∀ s ∈ w.db .user_session, UserSession.id s ≠ env.uuid 0
  signed : ∀ p ∈ w.ext.signed, p.sid ≠ some (env.uuid 0)

def draws_new_ids (_ : List (Action Token × Committed)) (w : Committed) (a : Action Token) : Prop :=
  ∀ s, a = .serve s → NewIds w s.env

/-! ### A live session behind every request -/

/-- What has been signed for a session names its owner. -/
def OwnersSigned (w : Committed) : Prop :=
  ∀ p ∈ w.ext.signed, ∀ i, p.sid = some i →
    ∀ s ∈ w.db .user_session, UserSession.id s = i → s.user_id = p.sub

/-- What the token says was signed by the server. -/
def Unforged (srv : Server Token) (w : Committed) (env : Env) (credentials : Option Token) : Prop :=
  ∀ token, credentials = some token → ∀ p, srv.jwt_decode token env.now = some p →
    p ∈ w.ext.signed

/-- A live session of the account stands behind the request. -/
structure Vouched (db : Database) (now : Nat) (account : UserAccount) (s : UserSession) : Prop where
  mem : s ∈ db .user_session
  owner : s.user_id = account.id
  unrevoked : s.revoked_at = none
  unexpired : now < s.expires_at
  holder : account ∈ db .user_account
  active : account.active = true

/-! ### One request -/

section request
variable {env : Env} {route : Route Token} {w : Committed}

/-- Inside a request: what it has signed it has signed for owners it knows, and the
    owners it knows are those of rows found, or of the one it has inserted. -/
structure Signing (env : Env) (route : Route Token) (w : Committed) (l : Owners) (s : Session) :
    Prop where
  consistent : schema.Consistent s.db
  signed : ∀ p ∈ s.ext.signed, ∀ i, p.sid = some i → p ∈ w.ext.signed ∨ (i, p.sub) ∈ l
  known : ∀ x ∈ l, (∃ r ∈ w.db .user_session, owner_of r = x) ∨
    (route.signs_in = true ∧ x.1 = env.uuid 0 ∧ ∃ r ∈ s.db .user_session, owner_of r = x)
  rows : ∀ r ∈ s.db .user_session, (∃ r₀ ∈ w.db .user_session, owner_of r₀ = owner_of r) ∨
    (route.signs_in = true ∧ UserSession.id r = env.uuid 0)

theorem Carried.owner {r₀ r : UserSession} (h : Carried r₀ r) : owner_of r = owner_of r₀ := by
  unfold owner_of
  rw [h.id, h.user_id]

theorem signs_in_deletes_nothing (h : route.signs_in = true) : route.deletes_account = false := by
  cases route <;> first | rfl | cases h

/-- An operation that changes neither the sessions, nor what is signed or known. -/
theorem Signing.idle {l : Owners} {s s' : Session} (h : Signing env route w l s)
    (hdb : s'.db = s.db) (hsigned : s'.ext.signed = s.ext.signed) :
    Signing env route w l s' where
  consistent := hdb ▸ h.consistent
  signed := hsigned ▸ h.signed
  known := hdb ▸ h.known
  rows := hdb ▸ h.rows

/-- The owners after an admitted statement, those known before included. -/
theorem Signing.write {l l' : Owners} {s s' : Session} {wr : Write Row Patch Uuid}
    (h : Signing env route w l s) (hp : permits srv env route (.write wr))
    (hchk : schema.check s.db wr = none)
    (hdb : s'.db = schema.effect (schema.resolve s.db wr) s.db)
    (hsigned : s'.ext.signed = s.ext.signed) (hsub : ∀ x ∈ l, x ∈ l')
    (hnew : ∀ x ∈ l', x ∈ l ∨ ∃ r, wr = .insert .user_session r ∧ owner_of r = x) :
    Signing env route w l' s' := by
  refine ⟨?_, ?_, ?_, ?_⟩
  · rw [hdb]
    exact Schema.consistent_admitted schema_regular h.consistent hchk
  · rw [hsigned]
    intro p hmem i hsid
    exact (h.signed p hmem i hsid).imp_right (hsub _)
  · intro x hx
    rcases hnew x hx with hold | ⟨r, rfl, rfl⟩
    · rcases h.known x hold with hfound | ⟨hroute, hid, r₀, hr₀, rfl⟩
      · exact .inl hfound
      · obtain ⟨r, hr, hcarried⟩ := session_stays hp (signs_in_deletes_nothing hroute) hr₀
        refine .inr ⟨hroute, hid, r, ?_, hcarried.owner⟩
        rwa [hdb]
    · refine .inr ⟨hp.2.1, hp.2.2.1, r, ?_, rfl⟩
      rw [hdb]
      exact Schema.mem_effect_insert.mpr (.inr rfl)
  · intro r hr
    rw [hdb] at hr
    rcases session_from hp hr with ⟨r₀, hr₀, hcarried, _⟩ | ⟨_, hroute, hid, _⟩
    · rcases h.rows r₀ hr₀ with ⟨r₁, hr₁, howner⟩ | ⟨hroute, hid⟩
      · exact .inl ⟨r₁, hr₁, howner.trans hcarried.owner.symm⟩
      · exact .inr ⟨hroute, hcarried.id.trans hid⟩
    · exact .inr ⟨hroute, hid⟩

/-- What a statement that is carried out teaches. -/
theorem mem_learn_write {l : Owners} {wr : Write Row Patch Uuid} {r : Except Violation Unit}
    {x : Uuid × Uuid} (hx : x ∈ learn l (.write wr) r) :
    x ∈ l ∨ ∃ row, wr = .insert .user_session row ∧ owner_of row = x := by
  cases wr with
  | insert t row =>
    cases t <;> try exact .inl hx
    cases r with
    | error v => exact .inl hx
    | ok u =>
      rcases List.mem_cons.mp hx with rfl | hold
      · exact .inr ⟨row, rfl, rfl⟩
      · exact .inl hold
  | update t id p => exact .inl hx
  | delete t id => exact .inl hx

theorem learn_mono {l : Owners} {o : Op Row Patch Uuid Ext} {r : Op.Res Answer o} {x : Uuid × Uuid}
    (hx : x ∈ l) : x ∈ learn l o r := by
  unfold learn
  split
  · exact List.mem_append_right _ hx
  · exact List.mem_cons_of_mem _ hx
  · exact hx

theorem learn_refused {l : Owners} {wr : Write Row Patch Uuid} {v : Violation} :
    learn l (.write wr) (.error v) = l := by
  cases wr with
  | insert t row => cases t <;> rfl
  | update t id p => rfl
  | delete t id => rfl

/-- **Step.** One operation of the request, permitted and within the outline. -/
theorem Signing.step {l : Owners} {s : Session} {o : Op Row Patch Uuid Ext}
    (h : Signing env route w l s) (ho : signs_for_owner l o ∧ permits srv env route o) :
    Signing env route w (learn l o (perform schema run_ext o s).1)
      (perform schema run_ext o s).2 := by
  cases o with
  | snapshot => exact h
  | select t p =>
    by_cases ht : t = .user_session
    · subst ht
      refine ⟨h.consistent, ?_, ?_, h.rows⟩
      · intro p hp i hsid
        exact (h.signed p hp i hsid).imp_right learn_mono
      · intro x hx
        rcases List.mem_append.mp hx with hread | hold
        · -- a session just read: one found, or the one inserted
          obtain ⟨r, hr, rfl⟩ := List.mem_map.mp hread
          have hr : r ∈ s.db .user_session := (List.mem_filter.mp hr).1
          exact (h.rows r hr).imp_right fun ⟨hroute, hid⟩ => ⟨hroute, hid, r, hr, rfl⟩
        · exact h.known x hold
    · have hsame : learn l (.select t p) (perform schema run_ext (.select t p) s).1 = l := by
        cases t <;> first | rfl | exact absurd rfl ht
      rw [hsame]
      exact h
  | write wr =>
    simp only [perform, Schema.attempt]
    -- a statement that fails teaches nothing, and leaves the rows
    by_cases hfault : s.faults.head? = some true
    · rw [if_pos hfault]
      dsimp only
      rw [learn_refused]
      exact h.idle rfl rfl
    · rw [if_neg hfault]
      cases hchk : schema.check s.db wr with
      | some v =>
        dsimp only
        rw [learn_refused]
        exact h.idle rfl rfl
      | none => exact h.write ho.2 hchk rfl rfl (fun _ => learn_mono) fun _ => mem_learn_write
  | ext e =>
    cases e with
    | put key data => exact h.idle rfl rfl
    | get key => exact h.idle rfl rfl
    | remove key => exact h.idle rfl rfl
    | sign p =>
      refine ⟨h.consistent, ?_, h.known, h.rows⟩
      intro p' hp' i hsid
      rcases List.mem_append.mp hp' with hold | hnew
      · exact h.signed p' hold i hsid
      · -- the outline lets a token be signed for a session that was read, under its owner's id
        obtain rfl := List.mem_singleton.mp hnew
        exact .inr (ho.1 i hsid)

/-- Before the first operation. -/
theorem signing_begin (hc : schema.Consistent w.db) : Signing env route w [] (w.begin env) where
  consistent := hc
  signed := fun p hp _ _ => .inl hp
  known := by
    intro x hx
    cases hx
  rows := fun r hr => .inl ⟨r, hr, rfl⟩

/-- After a COMMIT, and after a rollback: the record of what was signed stays in both. -/
theorem Signing.owners {l : Owners} {s : Session} (h : Signing env route w l s)
    (hc : schema.Consistent w.db) (hw : OwnersSigned w) (hnew : NewIds w env) :
    OwnersSigned ⟨s.db, s.ext⟩ ∧ OwnersSigned ⟨w.db, s.ext⟩ := by
  have hsame : ∀ a ∈ w.db .user_session, ∀ b ∈ w.db .user_session,
      UserSession.id a = UserSession.id b → a = b :=
    fun _ ha _ hb hid => hc.eq_of_pk ha hb hid
  constructor
  · intro p hp i hsid r hr hid
    rcases h.signed p hp i hsid with hold | hlearned
    · rcases h.rows r hr with ⟨r₀, hr₀, howner⟩ | ⟨_, huuid⟩
      · obtain ⟨hid₀, huser⟩ := Prod.mk.inj howner
        rw [← huser]
        exact hw p hold i hsid r₀ hr₀ (hid₀.trans hid)
      · rw [← hid, huuid] at hsid
        exact absurd hsid (hnew.signed p hold)
    · rcases h.known _ hlearned with ⟨r₀, hr₀, howner⟩ | ⟨_, _, r₀, hr₀, howner⟩
      · obtain ⟨hid₀, huser₀⟩ := Prod.mk.inj howner
        rcases h.rows r hr with ⟨r₁, hr₁, howner₁⟩ | ⟨_, huuid⟩
        · obtain ⟨hid₁, huser₁⟩ := Prod.mk.inj howner₁
          rw [← huser₁, ← huser₀, hsame r₁ hr₁ r₀ hr₀ (hid₁.trans (hid.trans hid₀.symm))]
        · exact absurd (hid₀.trans (hid.symm.trans huuid)) (hnew.sessions r₀ hr₀)
      · obtain ⟨hid₀, huser₀⟩ := Prod.mk.inj howner
        rw [← huser₀, h.consistent.eq_of_pk hr hr₀ (hid.trans hid₀.symm)]
  · intro p hp i hsid r hr hid
    rcases h.signed p hp i hsid with hold | hlearned
    · exact hw p hold i hsid r hr hid
    · rcases h.known _ hlearned with ⟨r₀, hr₀, howner⟩ | ⟨_, huuid, _⟩
      · obtain ⟨hid₀, huser₀⟩ := Prod.mk.inj howner
        rw [← huser₀, hsame r hr r₀ hr₀ (hid.trans hid₀.symm)]
      · exact absurd (hid.trans huuid) (hnew.sessions r hr)

/-- **Step.** Served a request, the server has signed for owners still. -/
theorem serve_owners (req : Request Token) (hc : schema.Consistent w.db) (hw : OwnersSigned w)
    (hnew : NewIds w env) : OwnersSigned (serve srv env req w).2 := by
  have hout := (respond_confined srv env req).outline_and (respond_mints srv env req [])
  obtain ⟨l, hend⟩ := exec_outline (perform_selected schema run_ext)
    (fun l o s ho hJ => Signing.step hJ ho) hout (signing_begin hc)
  obtain ⟨hcommit, hrollback⟩ := hend.owners hc hw hnew
  unfold serve get_session transact
  unfold Committed.begin at hcommit hrollback
  rw [Committed.met_db]
  generalize (respond srv env req).exec (perform schema run_ext) _ = x at hcommit hrollback ⊢
  obtain ⟨r, s⟩ := x
  cases r with
  | error e => exact hrollback
  | ok a =>
    cases env.commits with
    | true => exact hcommit
    | false => exact hrollback

end request

/-! ### Runs keep the owners -/

/-- An action that leaves the sessions and the record of what was signed alone. -/
theorem OwnersSigned.same {w w' : Committed} (h : OwnersSigned w)
    (hdb : w'.db .user_session = w.db .user_session) (hext : w'.ext.signed = w.ext.signed) :
    OwnersSigned w' := by
  unfold OwnersSigned
  rw [hdb, hext]
  exact h

/-- OCR reads a stored object and writes pages: no session, and no signature. -/
theorem ocr_owners (srv : Server Token) {env : Env} {document_id : Uuid} {engine : OcrEngine} {w : Committed}
    (h : OwnersSigned w) : OwnersSigned (Step.run srv (.ocr env document_id engine) w) := by
  let I : Session → Prop := fun s =>
    s.db .user_session = w.db .user_session ∧ s.ext.signed = w.ext.signed
  let P : Committed → Prop := OwnersSigned
  have hP : P (Step.run srv (.ocr env document_id engine) w) := by
    refine Step.run_confined (I := I) ?_ ⟨rfl, rfl⟩ (fun s hs => h.same hs.1 hs.2)
      (fun s hs => h.same rfl hs.2)
    rintro o s ho ⟨hdb, hext⟩
    constructor
    · rcases perform_db schema run_ext o s with heq | ⟨wr, rfl, _, heq⟩
      · rw [heq]
        exact hdb
      · rw [heq]
        cases wr with
        | insert t row => exact ho.elim
        | delete t id => exact ho.elim
        | update t id p =>
          have ht : t ≠ .user_session := by
            rintro rfl
            exact ho
          show schema.effect (.update t id p) s.db .user_session = _
          rw [Schema.effect_update_ne _ _ _ ht]
          exact hdb
    · rcases perform_ext_state schema run_ext o s with heq | ⟨e, rfl, heq⟩
      · rw [heq]
        exact hext
      · rw [heq]
        cases e with
        | get key => exact hext
        | put key data => exact ho.elim
        | remove key => exact ho.elim
        | sign p => exact ho.elim
  exact hP

theorem switched_consistent {db : Database} (h : schema.Consistent db) (account_id : Uuid)
    (active : Bool) : schema.Consistent
      (db.set .user_account ((db .user_account).map (switched account_id active))) := by
  refine h.rewritten schema_regular ?_ ?_ ?_
  · intro a
    show UserAccount.id (switched account_id active a) = a.id
    unfold switched
    split <;> rfl
  · intro a b
    show (UserAccount.email (switched account_id active a) == UserAccount.email b) = _
    unfold switched
    split <;> rfl
  · intro a k hk
    cases hk

theorem Step.consistent {s : Step Token} {w : Committed} (h : schema.Consistent w.db) :
    schema.Consistent (s.run srv w).db := by
  cases s with
  | request env req => exact (get_session_sound env (respond srv env req) h).1
  | ocr env document_id engine =>
    exact (get_session_sound env (run_ocr_for_document document_id engine) h).1

/-- **Run.** Whatever has been signed for a session names its owner. -/
theorem run_owners {past : List (Action Token × Committed)} {w : Committed}
    (hr : Run (acts srv) draws_new_ids .empty past w) :
    schema.Consistent w.db ∧ OwnersSigned w := by
  refine hr.invariant (I := fun _ w => schema.Consistent w.db ∧ OwnersSigned w) ?_ ?_
  · refine ⟨Schema.consistent_empty, ?_⟩
    intro p hp
    cases hp
  · rintro past w a w' _ ⟨hc, hw⟩ hdraws rfl
    cases a with
    | set_active account_id active =>
      refine ⟨switched_consistent hc account_id active, hw.same ?_ rfl⟩
      have hother : Table.user_account ≠ .user_session := by decide
      exact Db.set_ne w.db ((w.db .user_account).map (switched account_id active)) hother
    | serve s =>
      refine ⟨Step.consistent hc, ?_⟩
      cases s with
      | request env req => exact serve_owners req hc hw (hdraws _ rfl)
      | ocr env document_id engine => exact ocr_owners srv hw

/-! ### The guarantee -/

theorem wps_authenticated {env : Env} {credentials : Option Token} {s : Session} :
    wps (authenticated srv env credentials)
      (fun r _ => ∀ auth, r = .ok auth → SignedIn srv env credentials s.db auth) s := by
  have hwalk : wps (authenticated srv env credentials >>= pure)
      (fun r _ => ∀ auth, r = .ok auth → SignedIn srv env credentials s.db auth) s := by
    refine wps_authenticated_bind (fun e auth h => by cases h) fun auth hauth => ?_
    refine (wp_pure _).mpr fun auth' heq => ?_
    cases heq
    exact hauth
  refine wps_mono ((wp_bind _ _).mp hwalk) ?_
  intro r s' hr
  cases r with
  | error e => exact hr
  | ok auth => exact (wp_pure _).mp hr

/-- **Authenticated requests are backed.** In every run of the server, with accounts
    switched off and deleted at any point: whenever `authenticated` lets a request
    through, the session it names is there, belongs to the very account it names, is
    neither revoked nor expired, and the account is active. -/
theorem authenticated_backed {past : List (Action Token × Committed)} {w : Committed}
    (hr : Run (acts srv) draws_new_ids .empty past w) {env : Env} {credentials : Option Token}
    (hunforged : Unforged srv w env credentials) {auth : Authenticated} {s : Session}
    (hauth : (authenticated srv env credentials).exec (perform schema run_ext) (w.begin env) =
      (.ok auth, s)) :
    ∃ us, UserSession.id us = auth.session_id ∧ Vouched w.db env.now auth.account us := by
  obtain ⟨_, hw⟩ := run_owners hr
  have hsigned : SignedIn srv env credentials w.db auth := wp_exec wps_authenticated hauth auth rfl
  obtain ⟨token, htoken, claims, hclaims, huser, hsession⟩ := hsigned.token
  obtain ⟨p, hdecode, _, hsub, hsid, _⟩ := decode_access_token_eq_some.mp hclaims
  obtain ⟨us, hus, husid, hactive⟩ := hsigned.session
  have howner : us.user_id = p.sub :=
    hw p (hunforged token htoken p hdecode) _ hsid us hus (husid.trans hsession.symm)
  simp only [UserSession.is_active, Bool.and_eq_true, Option.isNone_iff_eq_none,
    decide_eq_true_eq] at hactive
  refine ⟨us, husid, hus, ?_, hactive.1, hactive.2, hsigned.account, hsigned.active⟩
  rw [howner, hsub, huser]

/-- An account registers and signs in, and is switched off and on again, latest first. -/
def switched_off_and_on : List (Action Payload) :=
  [.set_active 4096#128 true, .set_active 4096#128 false,
   .serve (.request (Sample.env 2 (101 * second)) ⟨none, .login "a@x.org" "correct horse"⟩),
   .serve (.request (Sample.env 1 (100 * second)) ⟨none, .register "a@x.org" "correct horse" none⟩)]

/-- Its token is accepted, and its session stands behind it. -/
theorem switched_on_backed : ∃ us, UserSession.id us = 8192#128 ∧
    Vouched (trail (Action.run Sample.server) .empty switched_off_and_on).2.db (102 * second)
      ⟨4096#128, "a@x.org", none, true, some "correct horse"⟩ us := by
  have hrun : Run (acts Sample.server) draws_new_ids .empty
      (trail (Action.run Sample.server) .empty switched_off_and_on).1
      (trail (Action.run Sample.server) .empty switched_off_and_on).2 := by
    refine .next _ (.next _ (.next _ (.next _ .start ?_ rfl) ?_ rfl) ?_ rfl) ?_ rfl
    · rintro s heq
      cases heq
      exact ⟨fun s hs => (List.not_mem_nil hs).elim, fun p hp => (List.not_mem_nil hp).elim⟩
    · rintro s heq
      cases heq
      exact ⟨by decide +kernel, by decide +kernel⟩
    · rintro s heq
      cases heq
    · rintro s heq
      cases heq
  let credentials : Option Payload := some (access_claims 4096#128 8192#128 (101 * second))
  have hresult : ((authenticated Sample.server (Sample.env 3 (102 * second)) credentials).exec
      (perform schema run_ext)
      ((trail (Action.run Sample.server) .empty switched_off_and_on).2.begin
        (Sample.env 3 (102 * second)))).1.toOption.map
          (fun auth => (auth.account, auth.session_id)) =
      some (⟨4096#128, "a@x.org", none, true, some "correct horse"⟩, 8192#128) := by
    decide +kernel
  generalize hauth : (authenticated Sample.server (Sample.env 3 (102 * second)) credentials).exec
    (perform schema run_ext) _ = x at hresult
  obtain ⟨r, s⟩ := x
  cases r with
  | error e => cases hresult
  | ok auth =>
  obtain ⟨haccount, hsession⟩ := Prod.mk.inj (Option.some.inj hresult)
  rw [← haccount, ← hsession]
  refine authenticated_backed hrun ?_ hauth
  intro token htoken p hdecode
  obtain rfl : access_claims 4096#128 8192#128 (101 * second) = token := Option.some.inj htoken
  have hp : p = access_claims 4096#128 8192#128 (101 * second) := by
    have hsome : Sample.server.jwt_decode (access_claims 4096#128 8192#128 (101 * second))
        (102 * second) = some (access_claims 4096#128 8192#128 (101 * second)) := by decide +kernel
    exact Option.some.inj (hdecode.symm.trans hsome)
  rw [hp]
  decide +kernel

end CounselReady
