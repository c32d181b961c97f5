import CounselReady.Guarantees.AccessAudit
import CounselReady.Guarantees.DeletionCascade

/-! # The Timeline

    Entries and notes are permanent and attributed. Nothing in the program
    updates or deletes one, so what a step keeps is a matter of what its
    statements can reach: an entry goes with its owner's account and with
    nothing else.
-/

namespace CounselReady

open Relational Framework

variable {Token : Type} {srv : Server Token}

/-! ### Attribution and persistence -/

/-- The entries and notes are the account holder's own words about their own case. -/
structure Attributed (db : Database) : Prop where
  events : ∀ e ∈ db .case_event, CaseEvent.provenance e = .user_asserted ∧
    CaseEvent.passage_id e = none ∧ ∃ c ∈ db .case_, Case.id c = CaseEvent.case_id e ∧
      CaseEvent.recorded_by_user_id e = some (Case.owner_id c)
  notes : ∀ n ∈ db .case_event_note, ∃ e ∈ db .case_event,
    CaseEvent.id e = CaseEventNote.event_id n ∧ ∃ c ∈ db .case_,
      Case.id c = CaseEvent.case_id e ∧ CaseEventNote.author_user_id n = Case.owner_id c

/-- The step is a deletion request that takes this account away. -/
def DeletesAccount (srv : Server Token) (owner : Uuid) (h : History Token) (s : Step Token) :
    Prop :=
  ∃ env req, s = .request env req ∧ req.route.deletes_account = true ∧
    ∀ a ∈ (s.run srv h.world).db .user_account, UserAccount.id a ≠ owner

theorem attributed_of_oneOwner {db : Database} (h : OneOwner db) : Attributed db where
  events := by
    intro e he
    have hentry := h.events e he
    exact ⟨hentry.provenance, hentry.passage, hentry.author⟩
  notes := by
    intro n hn
    obtain ⟨e, he, hid, hauthor⟩ := h.notes n hn
    obtain ⟨c, hc, hcid, howner⟩ := (h.events e he).author
    refine ⟨e, he, hid, c, hc, hcid, ?_⟩
    exact Option.some.inj (hauthor.symm.trans howner)

/-! ### What one statement keeps -/

/-- The two tables no statement of the program updates. -/
def on_timeline (t : Table) : Prop := t = .case_event ∨ t = .case_event_note

section statements
variable {db : Database} {owner : Uuid} {t : Table} {r : Row t}

theorem detached_on_timeline (hown : OneOwner db) (ht : on_timeline t) (hr : r ∈ db t)
    (gone : List (Table × Uuid)) : detached gone t r = r := by
  rcases ht with rfl | rfl
  · have hentry := hown.events r hr
    have hasserted : kept_ref gone .party (CaseEvent.asserted_by_party_id r) =
        CaseEvent.asserted_by_party_id r := by
      rw [hentry.asserted_by]
      rfl
    have habout : kept_ref gone .party (CaseEvent.about_party_id r) =
        CaseEvent.about_party_id r := by
      rw [hentry.about]
      rfl
    show ({ r with asserted_by_party_id := _, about_party_id := _ } : CaseEvent) = r
    rw [hasserted, habout]
  · rfl

/-- A permitted statement keeps an entry or a note, unless it deletes the owner. -/
theorem kept_by_statement {s : Step Token} {wr : Write Row Patch Uuid}
    (hc : schema.Consistent db) (hown : OneOwner db) (ht : on_timeline t) (hr : r ∈ db t)
    (howned : OwnedBy db owner t r) (hp : s.permits srv (.write wr))
    (hne : wr ≠ .delete .user_account owner) :
    r ∈ schema.effect (schema.resolve db wr) db t := by
  cases wr with
  | insert t' row =>
    by_cases htt : t' = t
    · subst htt
      exact Schema.mem_effect_insert.mpr (.inl hr)
    · rw [Schema.resolve, Schema.effect_insert_ne _ _ htt]
      exact hr
  | update t' id p =>
    by_cases htt : t' = t
    · subst htt
      -- there is no UPDATE of the timeline
      rcases ht with rfl | rfl <;> exact p.elim
    · rw [Schema.resolve, Schema.effect_update_ne _ _ _ htt]
      exact hr
  | delete t' i =>
    refine mem_remove.mpr ⟨r, hr, ?_, detached_on_timeline hown ht hr _⟩
    cases s with
    | ocr env document_id engine => exact absurd hp id
    | request env req =>
      rcases leaf_of_permitted hp with rfl | hleaf
      · have hid : owner ≠ i := by
          rintro rfl
          exact hne rfl
        exact stays_of_owned hc hown hid hr howned
      · intro hgone
        have heq := Schema.doomed_leaf schema_stratified schema_regular.ordered hleaf hgone
        have htt : t = t' := (Prod.mk.inj heq).1
        subst htt
        rcases ht with rfl | rfl <;> exact absurd hp id

/-- A case request that went through keeps every row there was. -/
theorem CaseAccess.keeps {env : Env} {account : UserAccount} {db₁ : Database}
    {route : Route Token} {reply : Reply Token} {row : CaseAuditEvent}
    (h : CaseAccess srv env account db route reply row db₁) (hr : r ∈ db t) :
    r ∈ schema.effect (.insert .case_audit_event row) db₁ t := by
  have hinsert : ∀ {db : Database} (t' : Table) (row : Row t'), r ∈ db t →
      r ∈ schema.effect (.insert t' row) db t := by
    intro db t' row hr
    by_cases htt : t' = t
    · subst htt
      exact Schema.mem_effect_insert.mpr (.inl hr)
    · rw [Schema.effect_insert_ne _ _ htt]
      exact hr
  refine hinsert _ _ ?_
  cases h with
  | create_case => exact hinsert _ _ hr
  | upload_document case_id upload c hc source extraction =>
    have hjob : r ∈ with_job env (env.uuid 0) extraction
        (schema.effect (.insert .document
          (uploaded_document srv env case_id upload source extraction)) db) t := by
      unfold with_job
      split
      · exact hinsert _ _ (hinsert _ _ hr)
      · exact hinsert _ _ hr
    by_cases htt : .document_page = t
    · subst htt
      rw [with_pages, inserted_all_self]
      exact List.mem_append_left _ hjob
    · rw [with_pages, inserted_all_ne _ _ htt]
      exact hjob
  | create_event => exact hinsert _ _ hr
  | create_note => exact hinsert _ _ hr
  | list_cases => exact hr
  | read_case => exact hr
  | list_documents => exact hr
  | read_document => exact hr
  | list_events => exact hr

end statements

/-- Once an account is deleted no row carries its id. -/
theorem owner_gone (db : Database) (owner : Uuid) :
    ∀ a ∈ schema.effect (schema.resolve db (.delete .user_account owner)) db .user_account,
      UserAccount.id a ≠ owner := by
  intro a ha heq
  obtain ⟨a₀, _, hstay, rfl⟩ := mem_remove.mp ha
  have hid : row_pk .user_account a₀ = owner := heq
  rw [hid] at hstay
  exact hstay (Schema.mem_doomed_self db .user_account owner)

/-- A deletion request adds no account. -/
theorem no_account_added {env : Env} {req : Request Token} {wr : Write Row Patch Uuid}
    {db : Database} {owner : Uuid} (hroute : req.route.deletes_account = true)
    (hp : (Step.request env req).permits srv (.write wr))
    (hnone : ∀ a ∈ db .user_account, UserAccount.id a ≠ owner) :
    ∀ a ∈ schema.effect (schema.resolve db wr) db .user_account, UserAccount.id a ≠ owner := by
  intro a ha
  rcases Schema.pk_effect_resolve ha with ⟨a₀, ha₀, hpk⟩ | rfl
  · have hid : UserAccount.id a = UserAccount.id a₀ := hpk
    rw [hid]
    exact hnone a₀ ha₀
  · have hreg : req.route.registers = true := hp.2.1
    obtain ⟨credentials, route⟩ := req
    cases route <;> first
      | exact absurd hroute Bool.false_ne_true
      | exact absurd hreg Bool.false_ne_true

/-! ### What one step keeps -/

section steps
variable {owner : Uuid} {t : Table} {r : Row t} {h : History Token} {s : Step Token}

/-- A step that is no case request, as statements: what holds of the rows all
    along, given that it holds of the rows the step finds. -/
theorem run_outside (J : Database → Prop) {w : Committed} (hc : schema.Consistent w.db)
    (hown : OneOwner w.db)
    (hs : ∀ env req, s = .request env req → req.route.on_cases = false)
    (hJ : ∀ wr db, schema.Consistent db → OneOwner db → s.permits srv (.write wr) → J db →
      J (schema.effect (schema.resolve db wr) db)) (h0 : J w.db) : J (s.run srv w).db := by
  suffices hall : schema.Consistent (s.run srv w).db ∧ OneOwner (s.run srv w).db ∧
      J (s.run srv w).db from hall.2.2
  refine Step.run_db_invariant
    (J := fun db => schema.Consistent db ∧ OneOwner db ∧ J db) ?_ ⟨hc, hown, h0⟩
  rintro wr db hp hchk ⟨hc, hown, hdb⟩
  refine ⟨?_, hown.statement wr ?_, hJ wr db hc hown hp hdb⟩
  · have hatt := Schema.consistent_attempt schema_regular hc wr
    simpa only [Schema.attempt, hchk] using hatt
  · rintro t row rfl
    exact inserts_outside hs hp

/-- **Step.** An entry or a note stays as it is, unless its owner's account goes. -/
theorem timeline_kept_step (hr : Reaches srv (fun _ _ => True) .start h) (ht : on_timeline t)
    (howned : ∀ db, OwnedBy db owner t r) (hmem : r ∈ h.world.db t)
    (hs : ¬ DeletesAccount srv owner h s) : r ∈ (s.run srv h.world).db t := by
  by_cases hcase : ∀ env req, s = .request env req → req.route.on_cases = false
  · by_cases hdel : ∀ env req, s = .request env req → req.route.deletes_account = false
    · -- no account is deleted at all
      refine run_outside (fun db => r ∈ db t) hr.consistent hr.oneOwner hcase ?_ hmem
      intro wr db hc hown hp hin
      refine kept_by_statement hc hown ht hin (howned db) hp ?_
      rintro rfl
      cases s with
      | ocr => exact (hp : False).elim
      | request env req =>
        have hroute : req.route.deletes_account = true := hp
        rw [hdel env req rfl] at hroute
        cases hroute
    · -- an account is: the row stays until the owner's is gone
      simp only [not_forall, Bool.not_eq_false] at hdel
      obtain ⟨env, req, rfl, hroute⟩ := hdel
      let J : Database → Prop := fun db =>
        r ∈ db t ∨ ∀ a ∈ db .user_account, UserAccount.id a ≠ owner
      have hJ : J ((Step.request env req).run srv h.world).db := by
        refine run_outside J hr.consistent hr.oneOwner hcase ?_ (.inl hmem)
        intro wr db hc hown hp hin
        by_cases hwr : wr = .delete .user_account owner
        · subst hwr
          exact .inr (owner_gone db owner)
        · rcases hin with hin | hnone
          · exact .inl (kept_by_statement hc hown ht hin (howned db) hp hwr)
          · exact .inr (no_account_added hroute hp hnone)
      rcases hJ with hin | hnone
      · exact hin
      · exact absurd ⟨env, req, rfl, hroute, hnone⟩ hs
  · -- a case request deletes nothing
    simp only [not_forall, Bool.not_eq_false] at hcase
    obtain ⟨env, req, rfl, hroute⟩ := hcase
    show r ∈ (serve srv env req h.world).2.db t
    rcases @serve_on_cases _ srv env _ hroute h.world with
      ⟨auth, reply, row, db, _, hacc, _, hdb⟩ | ⟨_, hdb⟩
    · rw [hdb]
      exact hacc.keeps hmem
    · rw [hdb]
      exact hmem

/-- **Run.** So it stays as long as no step of the run takes its owner away. -/
theorem timeline_kept {h' : History Token} (hr : Reaches srv (fun _ _ => True) .start h)
    (ht : on_timeline t) (howned : ∀ db, OwnedBy db owner t r) (hmem : r ∈ h.world.db t)
    (hrun : Reaches srv (fun h s => ¬ DeletesAccount srv owner h s) h h') :
    r ∈ h'.world.db t := by
  have hall : Reaches srv (fun _ _ => True) .start h' ∧ r ∈ h'.world.db t := by
    refine hrun.invariant (I := fun h' => Reaches srv (fun _ _ => True) .start h' ∧
      r ∈ h'.world.db t) ⟨hr, hmem⟩ ?_
    rintro h₁ s _ ⟨hreach, hin⟩ hs
    exact ⟨.step s hreach trivial, timeline_kept_step hreach ht howned hin hs⟩
  exact hall.2

end steps

/-! ### Request bodies -/

/-- Members the model does not declare make no difference to a new entry. -/
theorem validate_ignores_extra (datetime : Json → Option Int) {body body' : JsonObject}
    (h : ∀ name ∈ ["summary", "occurred_at", "kind", "date_precision"],
      body.member name = body'.member name) :
    CreateEventRequest.validate datetime body = CreateEventRequest.validate datetime body' := by
  have hsummary := h "summary" (by simp)
  have hoccurred := h "occurred_at" (by simp)
  have hkind := h "kind" (by simp)
  have hprecision := h "date_precision" (by simp)
  unfold CreateEventRequest.validate JsonObject.defaulted
  rw [hsummary, hoccurred, hkind, hprecision]

section bodies
variable {env : Env} {credentials : Option Token} {w : Committed}

/-- A handler that cannot return commits nothing. -/
theorem raised_keeps {α : Type} {p : Handler α}
    (h : wps p (fun r _ => ∃ e, r = .error e) (w.begin env)) :
    (get_session env p w).2.db = w.db := by
  let P : Except Exc α → Committed → Prop := fun _ w' => w'.db = w.db
  have hP : P (get_session env p w).1 (get_session env p w).2 := by
    refine get_session_wps (wps_mono h ?_)
    rintro r s' ⟨e, rfl⟩
    rfl
  exact hP

/-- Whatever the body, the rows are those of a request of the modelled routes, or
    as they were. -/
theorem post_event_db (datetime : Json → Option Int) (case_id : Uuid) (body : JsonObject) :
    (∃ request, (get_session env (post_event srv env credentials datetime case_id body) w).2 =
      (Step.request env ⟨credentials, .create_event case_id request⟩).run srv w) ∨
    (get_session env (post_event srv env credentials datetime case_id body) w).2.db = w.db := by
  unfold post_event
  cases CreateEventRequest.validate datetime body with
  | some request => exact .inl ⟨request, rfl⟩
  | none =>
    refine .inr (raised_keeps (wps_current_user_bind (fun e => ⟨e, rfl⟩) fun auth _ => ?_))
    refine wps_owned_case_bind (fun e => ⟨e, rfl⟩) fun c _ => ?_
    exact (Prog.wp_raise _).mpr ⟨_, rfl⟩

theorem post_note_db (case_id event_id : Uuid) (body : JsonObject) :
    (∃ text, (get_session env (post_note srv env credentials case_id event_id body) w).2 =
      (Step.request env ⟨credentials, .create_note case_id event_id text⟩).run srv w) ∨
    (get_session env (post_note srv env credentials case_id event_id body) w).2.db = w.db := by
  unfold post_note
  cases (body.member "body").bind Json.str with
  | some text => exact .inl ⟨text, rfl⟩
  | none =>
    refine .inr (raised_keeps (wps_current_user_bind (fun e => ⟨e, rfl⟩) fun auth _ => ?_))
    refine wps_owned_case_bind (fun e => ⟨e, rfl⟩) fun c _ => ?_
    refine wps_owned_event_bind (fun e => ⟨e, rfl⟩) fun e _ _ _ => ?_
    exact (Prog.wp_raise _).mpr ⟨_, rfl⟩

end bodies

/-! ### The guarantee -/

/-- **Append-only timeline.** In every reachable state the entries and notes are
    attributed to the owner of their case, and so they are after a request with
    any body. From then on each of them stays as it is in every run that does
    not delete its owner's account. -/
theorem timeline_append_only {h : History Token} (hr : Reaches srv (fun _ _ => True) .start h) :
    Attributed h.world.db ∧
    (∀ env credentials datetime case_id body,
      Attributed (get_session env
        (post_event srv env credentials datetime case_id body) h.world).2.db) ∧
    (∀ env credentials case_id event_id body,
      Attributed (get_session env
        (post_note srv env credentials case_id event_id body) h.world).2.db) ∧
    ∀ c ∈ h.world.db .case_, ∀ h', Reaches srv
        (fun h s => ¬ DeletesAccount srv (Case.owner_id c) h s) h h' →
      ∀ e ∈ h.world.db .case_event, CaseEvent.case_id e = Case.id c →
        e ∈ h'.world.db .case_event ∧
        ∀ n ∈ h.world.db .case_event_note, CaseEventNote.event_id n = CaseEvent.id e →
          n ∈ h'.world.db .case_event_note := by
  have hown := hr.oneOwner
  have hcons := hr.consistent
  refine ⟨attributed_of_oneOwner hown, ?_, ?_, ?_⟩
  · intro env credentials datetime case_id body
    rcases @post_event_db _ srv env credentials h.world datetime case_id body with
      ⟨request, heq⟩ | hsame
    · rw [heq]
      exact attributed_of_oneOwner (hown.step hcons)
    · rw [hsame]
      exact attributed_of_oneOwner hown
  · intro env credentials case_id event_id body
    rcases @post_note_db _ srv env credentials h.world case_id event_id body with
      ⟨text, heq⟩ | hsame
    · rw [heq]
      exact attributed_of_oneOwner (hown.step hcons)
    · rw [hsame]
      exact attributed_of_oneOwner hown
  · intro c hc h' hrun e he hcase
    -- the entry is the owner's, and so are its notes
    obtain ⟨c', hc', hid', hauthor⟩ := (hown.events e he).author
    obtain rfl : c' = c := hcons.eq_of_pk hc' hc (hid'.trans hcase)
    refine ⟨timeline_kept hr (.inl rfl) (fun _ => hauthor) he hrun, ?_⟩
    intro n hn hevent
    obtain ⟨e', he', hid, hauthor'⟩ := hown.notes n hn
    obtain rfl : e' = e := hcons.eq_of_pk he' he (hid.trans hevent)
    have hsame : CaseEventNote.author_user_id n = Case.owner_id c' :=
      Option.some.inj (hauthor'.symm.trans hauthor)
    exact timeline_kept hr (.inr rfl) (fun _ => hsame) hn hrun

/-- The owner of the case of `filed` records an entry. -/
def recorded : History Payload :=
  filed.next Sample.server (.request (Sample.env 5 (104 * second))
    ⟨Sample.bearer (101 * second), .create_event 12288#128
      ⟨"No exchange on the 3rd.", 1000000, none, none⟩⟩)

/-- The correction beside it. -/
def correction : Step Payload :=
  .request (Sample.env 6 (105 * second))
    ⟨Sample.bearer (101 * second), .create_note 12288#128 20480#128 "It was the 5th."⟩

/-- The entry is as it was recorded, whatever it is, once it has been corrected. -/
theorem corrected_entry_kept :
    recorded.world.db .case_event ≠ [] ∧
      ∀ e ∈ recorded.world.db .case_event, e ∈ (recorded.next Sample.server correction).world.db
        .case_event := by
  have hfiled : Reaches Sample.server (fun _ _ => True) .start filed :=
    reaches_filed.mono fun _ _ _ => trivial
  have hreach : Reaches Sample.server (fun _ _ => True) .start recorded := .step _ hfiled trivial
  have htimeline := timeline_append_only hreach
  refine ⟨by decide +kernel, ?_⟩
  intro e he
  obtain ⟨_, _, c, hc, hid, _⟩ := htimeline.1.events e he
  refine (htimeline.2.2.2 c hc _ (.step correction .refl ?_) e he hid.symm).1
  rintro ⟨env, req, heq, hroute, _⟩
  cases heq
  cases hroute

end CounselReady
