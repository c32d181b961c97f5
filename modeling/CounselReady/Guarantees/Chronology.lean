import CounselReady.Guarantees.ErasedBytes
import CounselReady.Specs.Admission
import CounselReady.Specs.CaseFile

/-! # The Chronology

    A timeline is read oldest first, by when things happened and then by when they
    were recorded. The database may return what these cannot tell apart in any order,
    and in another one the next time.
-/

namespace CounselReady

open Relational Framework Handler Prog

variable {Token : Type} {srv : Server Token} {s : Session}

/-! ### Loads -/

/-- The same rows, perhaps met in another order. -/
def Shuffled (db db' : Database) : Prop := ∀ t, (db' t).Perm (db t)

theorem Shuffled.refl (db : Database) : Shuffled db db := fun _ => .rfl

theorem Shuffled.set {db : Database} {t : Table} {rows : List (Row t)} (h : rows.Perm (db t)) :
    Shuffled db (db.set t rows) := by
  intro t'
  by_cases heq : t = t'
  · subst heq
    rw [Db.set_self]
    exact h
  · rw [Db.set_ne _ _ heq]

theorem Shuffled.consistent {db db' : Database} (h : Shuffled db db')
    (hc : schema.Consistent db) : schema.Consistent db' where
  distinct t := ((h t).pairwise_iff fun hne heq => hne heq.symm).mpr (hc.distinct t)
  indexed t := ((h t).pairwise_iff fun hapart => (schema_regular.clash_comm t _ _).trans hapart).mpr
    (hc.indexed t)
  anchored t r hr := by
    refine Schema.anchored_iff.mpr fun k hk j hj => ?_
    obtain ⟨p, hp, hpk⟩ := hc.target ((h t).mem_iff.mp hr) hk hj
    exact ⟨p, (h k.target).mem_iff.mpr hp, hpk⟩

/-- Who reads, and when. -/
structure Visit (Token : Type) where
  env : Env
  credentials : Option Token

/-- One load of a timeline. -/
def Load (srv : Server Token) (case_id : Uuid) (v : Visit Token) (w : Committed)
    (events : List EventResponse) (w' : Committed) : Prop :=
  ∃ db, Shuffled w.db db ∧
    serve srv v.env ⟨v.credentials, .list_events case_id⟩ ⟨db, w.ext⟩ =
      (.success 200 (.events events), w')

/-- What the reader sees of the order: the entries, and the notes under each. -/
def layout (events : List EventResponse) : List (Uuid × List Uuid) :=
  events.map (fun e => (e.id, e.notes.map NoteResponse.id))

/-- Oldest first, entries and notes. -/
structure OldestFirst (events : List EventResponse) : Prop where
  entries : events.Pairwise (fun a b => a.occurred_at ≤ b.occurred_at)
  notes : ∀ e ∈ events, e.notes.Pairwise (fun a b => a.created_at ≤ b.created_at)

/-- Two loads one after the other show the same, oldest first. -/
structure StableChronology (srv : Server Token) (case_id : Uuid) (first second : Visit Token)
    (w : Committed) : Prop where
  same : ∀ events w₁ events' w₂, Load srv case_id first w events w₁ →
    Load srv case_id second w₁ events' w₂ → layout events = layout events'
  ordered : ∀ events w₁ events' w₂, Load srv case_id first w events w₁ →
    Load srv case_id second w₁ events' w₂ → OldestFirst events ∧ OldestFirst events'

/-- The columns a timeline is sorted by tell its rows apart. -/
structure Separated (case_id : Uuid) (db : Database) : Prop where
  events : ∀ e ∈ db .case_event, ∀ e' ∈ db .case_event, CaseEvent.case_id e = case_id →
    CaseEvent.case_id e' = case_id → e.occurred_at = e'.occurred_at →
    e.created_at = e'.created_at → e = e'
  notes : ∀ e ∈ db .case_event, CaseEvent.case_id e = case_id →
    ∀ n ∈ db .case_event_note, ∀ n' ∈ db .case_event_note, CaseEventNote.event_id n = e.id →
    CaseEventNote.event_id n' = e.id → n.created_at = n'.created_at → n = n'

/-! ### What a load shows -/

/-- The notes under an entry, in order. -/
def notes_under (db : Database) (event_id : Uuid) : List CaseEventNote :=
  order_by (fun a b : CaseEventNote => decide (a.created_at ≤ b.created_at))
    ((db .case_event_note).filter (fun n : CaseEventNote => n.event_id == event_id))

def shown (db : Database) (case_id : Uuid) : List EventResponse :=
  (events_of db case_id).map (event_response (loaded_of db (events_of db case_id)))

theorem notes_of_loaded {db : Database} {events : List CaseEvent} {e : CaseEvent}
    (he : e ∈ events) :
    notes_of (loaded_of db events) e = (notes_under db e.id).map note_response := by
  have hfilter : (loaded_of db events).notes.filter (fun n => n.event_id == e.id) =
      (db .case_event_note).filter (fun n : CaseEventNote => n.event_id == e.id) := by
    show ((db .case_event_note).filter (fun n : CaseEventNote =>
      (events.map CaseEvent.id).contains n.event_id)).filter (fun n => n.event_id == e.id) = _
    rw [List.filter_filter]
    refine List.filter_congr fun n _ => ?_
    by_cases hid : CaseEventNote.event_id n = e.id
    · have hmem : e.id ∈ events.map CaseEvent.id := List.mem_map_of_mem he
      simp [hid, hmem]
    · simp [hid]
  unfold notes_of notes_under
  rw [hfilter]

theorem layout_shown (db : Database) (case_id : Uuid) :
    layout (shown db case_id) =
      (events_of db case_id).map (fun e => (e.id, (notes_under db e.id).map CaseEventNote.id)) := by
  unfold layout shown
  rw [List.map_map]
  refine List.map_congr_left fun e he => ?_
  show (e.id, (notes_of (loaded_of db (events_of db case_id)) e).map NoteResponse.id) = _
  rw [notes_of_loaded he, List.map_map]
  rfl

theorem chronological_total (a b : CaseEvent) :
    chronological a b = true ∨ chronological b a = true := by
  simp only [chronological, Bool.or_eq_true, Bool.and_eq_true, decide_eq_true_eq]
  omega

theorem chronological_trans (a b c : CaseEvent) (hab : chronological a b = true)
    (hbc : chronological b c = true) : chronological a c = true := by
  simp only [chronological, Bool.or_eq_true, Bool.and_eq_true, decide_eq_true_eq] at hab hbc ⊢
  omega

theorem oldest_first_shown (db : Database) (case_id : Uuid) :
    OldestFirst (shown db case_id) where
  entries := by
    have hsorted : (events_of db case_id).Pairwise (fun a b => chronological a b = true) :=
      order_by_sorted chronological_total chronological_trans
    refine List.pairwise_map.mpr (hsorted.imp fun hab => ?_)
    show CaseEvent.occurred_at _ ≤ CaseEvent.occurred_at _
    simp only [chronological, Bool.or_eq_true, Bool.and_eq_true, decide_eq_true_eq] at hab
    omega
  notes := by
    intro e he
    obtain ⟨event, hevent, rfl⟩ := List.mem_map.mp he
    show (notes_of (loaded_of db (events_of db case_id)) event).Pairwise _
    rw [notes_of_loaded hevent]
    exact List.pairwise_map.mpr (order_by_key CaseEventNote.created_at _)

/-- A load that goes through shows the rows as it met them, and writes its audit row. -/
theorem Load.shows {case_id : Uuid} {v : Visit Token} {w w' : Committed}
    {events : List EventResponse} (h : Load srv case_id v w events w') :
    ∃ db, Shuffled w.db db ∧ events = shown db case_id ∧
      ∀ t, t ≠ .case_audit_event → w'.db t = db t := by
  obtain ⟨db, hshuffled, hserved⟩ := h
  refine ⟨db, hshuffled, ?_⟩
  rcases @serve_on_cases _ srv v.env ⟨v.credentials, .list_events case_id⟩ rfl ⟨db, w.ext⟩ with
    ⟨auth, reply, row, db', _, hacc, hresp, hdb⟩ | ⟨hrefused, _⟩
  · rw [hserved] at hresp hdb
    obtain ⟨_, rfl⟩ := Response.success.inj hresp
    dsimp only at hdb hacc
    cases hacc with
    | list_events _ c owned =>
      refine ⟨rfl, fun t ht => ?_⟩
      rw [hdb]
      exact Schema.effect_insert_ne _ _ ht.symm
  · rw [hserved] at hrefused
    exact hrefused.elim

/-! ### Keys that tell the rows apart -/

/-- With its rows told apart, a timeline is laid out the same however they are met. -/
theorem layout_eq_of_shuffled {case_id : Uuid} {db db₁ db₂ : Database}
    (hevents₁ : (db₁ .case_event).Perm (db .case_event))
    (hevents₂ : (db₂ .case_event).Perm (db .case_event))
    (hnotes₁ : (db₁ .case_event_note).Perm (db .case_event_note))
    (hnotes₂ : (db₂ .case_event_note).Perm (db .case_event_note))
    (hapart : Separated case_id db) : layout (shown db₁ case_id) = layout (shown db₂ case_id) := by
  have hevents : events_of db₁ case_id = events_of db₂ case_id := by
    refine order_by_eq_of_perm chronological_total chronological_trans
      ((hevents₁.trans hevents₂.symm).filter _) fun a ha b hb hab hba => ?_
    simp only [List.mem_filter, beq_iff_eq] at ha hb
    simp only [chronological, Bool.or_eq_true, Bool.and_eq_true, decide_eq_true_eq] at hab hba
    exact hapart.events a (hevents₁.mem_iff.mp ha.1) b (hevents₁.mem_iff.mp hb.1) ha.2 hb.2
      (by omega) (by omega)
  rw [layout_shown, layout_shown, ← hevents]
  refine List.map_congr_left fun e he => ?_
  have hmem := List.mem_filter.mp (mem_order_by.mp he)
  have hcase : e.case_id = case_id := beq_iff_eq.mp hmem.2
  have hnotes : notes_under db₁ e.id = notes_under db₂ e.id := by
    refine order_by_eq_of_perm (fun a b => ?_) (fun a b c hab hbc => ?_)
      ((hnotes₁.trans hnotes₂.symm).filter _) fun a ha b hb hab hba => ?_
    · simpa using Nat.le_total a.created_at b.created_at
    · simp only [decide_eq_true_eq] at hab hbc ⊢
      omega
    · simp only [List.mem_filter, beq_iff_eq] at ha hb
      simp only [decide_eq_true_eq] at hab hba
      exact hapart.notes e (hevents₁.mem_iff.mp hmem.1) hcase a (hnotes₁.mem_iff.mp ha.1) b
        (hnotes₁.mem_iff.mp hb.1) ha.2 hb.2 (by omega)
  rw [hnotes]

/-! ### Rows that cannot be told apart -/

theorem no_swap {α : Type} {l : List α} (hl : l.Nodup) {a b : α} (hab : [a, b].Sublist l)
    (hba : [b, a].Sublist l) : False := by
  induction l with
  | nil => cases hab
  | cons x l ih =>
    obtain ⟨hx, hl⟩ := List.nodup_cons.mp hl
    cases hab with
    | cons _ hab =>
      cases hba with
      | cons _ hba => exact ih hl hab hba
      | cons_cons _ hba => exact hx (hab.subset (by simp))
    | cons_cons _ hab =>
      cases hba with
      | cons _ hba => exact hx (hba.subset (by simp))
      | cons_cons _ hba => exact hx (hba.subset (by simp))

/-- The account that reads owns the case, and nothing is in the way of the load. -/
structure MayLoad (srv : Server Token) (v : Visit Token) (case_id : Uuid) (db : Database) :
    Prop where
  owner : ∃ auth, SignedIn srv v.env v.credentials db auth ∧
    ∃ c ∈ db .case_, Case.id c = case_id ∧ c.owner_id = auth.account.id
  up : true ∉ v.env.faults
  commits : v.env.commits = true
  fresh : ∀ row ∈ db .case_audit_event, CaseAuditEvent.id row ≠ v.env.uuid 0

theorem SignedIn.of_mem {env : Env} {credentials : Option Token} {db db' : Database}
    {auth : Authenticated} (h : SignedIn srv env credentials db auth)
    (hsessions : ∀ us ∈ db .user_session, us ∈ db' .user_session)
    (haccounts : ∀ a ∈ db .user_account, a ∈ db' .user_account) :
    SignedIn srv env credentials db' auth := by
  obtain ⟨us, hus, hid, hlive⟩ := h.session
  exact ⟨h.token, ⟨us, hsessions us hus, hid, hlive⟩, haccounts _ h.account, h.active⟩

theorem audit_admitted {db : Database} {id : Uuid} {account : UserAccount} {c : Case}
    {action : CaseAction} {detail : Option (List (String × Nat))}
    (hfresh : ∀ row ∈ db .case_audit_event, CaseAuditEvent.id row ≠ id)
    (haccount : account ∈ db .user_account) (hcase : c ∈ db .case_) :
    schema.check db (.insert .case_audit_event
      (access_row id account (some c.id) action detail)) = none := by
  refine Schema.check_insert_of rfl (fun row hrow => ⟨hfresh row hrow, rfl⟩) ?_
  refine Schema.anchored_iff.mpr fun k hk j hj => ?_
  simp only [schema, row_keys, List.mem_cons, List.not_mem_nil, or_false] at hk
  rcases hk with rfl | rfl
  · obtain rfl := Option.some.inj hj
    exact ⟨account, haccount, rfl⟩
  · obtain rfl := Option.some.inj hj
    exact ⟨c, hcase, rfl⟩

/-- Any order the rows may be met in is met by some load. -/
theorem exists_load {case_id : Uuid} {v : Visit Token} {w : Committed} {db : Database}
    (hc : schema.Consistent w.db) (hmay : MayLoad srv v case_id w.db) (hdb : Shuffled w.db db) :
    ∃ w', Load srv case_id v w (shown db case_id) w' ∧
      ∃ row, CaseAuditEvent.id row = v.env.uuid 0 ∧
        schema.check db (.insert .case_audit_event row) = none ∧
        w'.db = schema.effect (.insert .case_audit_event row) db := by
  obtain ⟨auth, hauth, c, hmem, rfl, howner⟩ := hmay.owner
  have hcdb := hdb.consistent hc
  have hauthdb : SignedIn srv v.env v.credentials db auth :=
    hauth.of_mem (fun _ h => (hdb .user_session).mem_iff.mpr h)
      (fun _ h => (hdb .user_account).mem_iff.mpr h)
  have hmemdb : c ∈ db .case_ := (hdb _).mem_iff.mpr hmem
  have hcheck := @audit_admitted db (v.env.uuid 0) auth.account c .event_list
    (some [("events", (events_of db c.id).length)])
    (fun row hrow => hmay.fresh row ((hdb .case_audit_event).mem_iff.mp hrow)) hauthdb.account
    hmemdb
  let P : Response Token → Committed → Prop := fun resp w' =>
    resp = .success 200 (.events (shown db c.id)) ∧ w'.db = schema.effect (.insert .case_audit_event
      (access_row (v.env.uuid 0) auth.account (some c.id) .event_list
        (some [("events", (events_of db c.id).length)]))) db
  have hserved : P (serve srv v.env ⟨v.credentials, .list_events c.id⟩ ⟨db, w.ext⟩).1
      (serve srv v.env ⟨v.credentials, .list_events c.id⟩ ⟨db, w.ext⟩).2 := by
    refine serve_wps (wps_current_user_admitted hcdb hauthdb
      (wps_owned_case_admitted hcdb hmemdb howner (wps_select_bind ?_)))
    refine wps_bind (wps_select_bind (wps_select_bind (wps_select_bind (wps_select_bind
      ((wp_pure _).mpr ?_)))))
    refine wps_execute_admitted_bind hmay.up hcheck ((wp_pure _).mpr ⟨fun _ => ⟨rfl, rfl⟩, ?_⟩)
    intro hlost
    rw [hmay.commits] at hlost
    cases hlost
  exact ⟨_, ⟨db, hdb, Prod.ext hserved.1 rfl⟩, _, rfl, hcheck, hserved.2⟩

/-- The rows of one table, met in two orders, are shown the same by a stable timeline. -/
theorem StableChronology.met {case_id : Uuid} {first second : Visit Token} {w : Committed}
    (h : StableChronology srv case_id first second w) (hc : schema.Consistent w.db)
    (h₁ : MayLoad srv first case_id w.db) (h₂ : MayLoad srv second case_id w.db)
    (hids : first.env.uuid 0 ≠ second.env.uuid 0) {t : Table} (ht : t ≠ .case_audit_event)
    {rows₁ rows₂ : List (Row t)} (hrows₁ : rows₁.Perm (w.db t)) (hrows₂ : rows₂.Perm (w.db t)) :
    layout (shown (w.db.set t rows₁) case_id) = layout (shown (w.db.set t rows₂) case_id) := by
  have hset : Shuffled w.db (w.db.set t rows₁) := .set hrows₁
  obtain ⟨w₁, hload₁, row, hrow, hcheck, hw₁⟩ := exists_load hc h₁ hset
  have hother : ∀ t', t' ≠ .case_audit_event → w₁.db t' = w.db.set t rows₁ t' := by
    intro t' ht'
    rw [hw₁]
    exact Schema.effect_insert_ne _ _ ht'.symm
  have hmem : ∀ t', t' ≠ .case_audit_event → ∀ r ∈ w.db t', r ∈ w₁.db t' := by
    intro t' ht' r hr
    rw [hother t' ht']
    exact (hset t').mem_iff.mpr hr
  -- the second reader may still read
  have hmay : MayLoad srv second case_id w₁.db := by
    obtain ⟨auth, hauth, c, hcase, hid, howner⟩ := h₂.owner
    refine ⟨⟨auth, hauth.of_mem (hmem _ (by decide)) (hmem _ (by decide)), c,
      hmem _ (by decide) c hcase, hid, howner⟩, h₂.up, h₂.commits, fun row' hrow' => ?_⟩
    rw [hw₁] at hrow'
    rcases Schema.mem_effect_insert.mp hrow' with hold | rfl
    · exact h₂.fresh row' ((hset .case_audit_event).mem_iff.mp hold)
    · rw [hrow]
      exact hids
  have hc₁ : schema.Consistent w₁.db := by
    rw [hw₁]
    exact Schema.consistent_admitted schema_regular (hset.consistent hc) hcheck
  have hrows : rows₂.Perm (w₁.db t) := by
    rw [hother t ht, Db.set_self]
    exact hrows₂.trans hrows₁.symm
  obtain ⟨w₂, hload₂, _⟩ := exists_load hc₁ hmay (.set hrows)
  have hsame := h.same _ _ _ _ hload₁ hload₂
  rw [hsame]
  have htables : ∀ t', t' ≠ .case_audit_event →
      w₁.db.set t rows₂ t' = w.db.set t rows₂ t' := by
    intro t' ht'
    by_cases heq : t = t'
    · subst heq
      rw [Db.set_self, Db.set_self]
    · rw [Db.set_ne _ _ heq, Db.set_ne _ _ heq, hother t' ht', Db.set_ne _ _ heq]
  rw [layout_shown, layout_shown]
  unfold events_of notes_under
  rw [htables .case_event (by decide), htables .case_event_note (by decide)]

theorem perm_pair {α : Type} [DecidableEq α] {l : List α} {a b : α} (ha : a ∈ l) (hb : b ∈ l)
    (hne : a ≠ b) : (a :: b :: (l.erase a).erase b).Perm l := by
  have hb' : b ∈ l.erase a := (List.mem_erase_of_ne hne.symm).mpr hb
  exact ((List.perm_cons_erase hb').symm.cons a).trans (List.perm_cons_erase ha).symm

/-- A sort does not move a pair that ties, whichever comes first. -/
theorem tied_pair {α : Type} {le : α → α → Bool} {p : α → Bool} {a b : α} {rest : List α}
    (ha : p a = true) (hb : p b = true) (hle : le a b = true) :
    [a, b].Sublist (order_by le ((a :: b :: rest).filter p)) := by
  refine order_by_pair hle ?_
  rw [List.filter_cons_of_pos ha, List.filter_cons_of_pos hb]
  exact ((List.nil_sublist _).cons_cons b).cons_cons a

/-- Two rows that tie are read either way round, as they are met. -/
theorem order_by_tie {α κ : Type} [DecidableEq α] {le : α → α → Bool} {p : α → Bool} {key : α → κ}
    {l : List α} (hkeys : (l.map key).Nodup) {a b : α} (ha : a ∈ l) (hb : b ∈ l) (hne : a ≠ b)
    (hpa : p a = true) (hpb : p b = true) (hab : le a b = true) (hba : le b a = true) :
    (order_by le ((a :: b :: (l.erase a).erase b).filter p)).map key ≠
      (order_by le ((b :: a :: (l.erase b).erase a).filter p)).map key := by
  intro hsame
  have hpair : [key a, key b].Sublist
      ((order_by le ((a :: b :: (l.erase a).erase b).filter p)).map key) :=
    (tied_pair hpa hpb hab).map key
  have hpair' : [key b, key a].Sublist
      ((order_by le ((b :: a :: (l.erase b).erase a).filter p)).map key) :=
    (tied_pair hpb hpa hba).map key
  rw [← hsame] at hpair'
  refine no_swap ?_ hpair hpair'
  have hrows : ((a :: b :: (l.erase a).erase b).map key).Nodup :=
    ((perm_pair ha hb hne).map key).nodup_iff.mpr hkeys
  refine (order_by_perm.map key).nodup_iff.mpr ?_
  exact hrows.sublist (List.filter_sublist.map key)

theorem entries_told_apart {db : Database} {case_id : Uuid} (hc : schema.Consistent db)
    (hmet : ∀ {rows₁ rows₂ : List CaseEvent}, rows₁.Perm (db .case_event) →
      rows₂.Perm (db .case_event) → layout (shown (db.set .case_event rows₁) case_id) =
        layout (shown (db.set .case_event rows₂) case_id))
    {e e' : CaseEvent} (he : e ∈ db .case_event) (he' : e' ∈ db .case_event)
    (hcase : e.case_id = case_id) (hcase' : e'.case_id = case_id)
    (hdate : e.occurred_at = e'.occurred_at) (hrecorded : e.created_at = e'.created_at) :
    e = e' := by
  by_contra hne
  have hids := congrArg (List.map Prod.fst)
    (hmet (perm_pair he he' hne) (perm_pair he' he (Ne.symm hne)))
  simp only [layout_shown, List.map_map, Function.comp_def, events_of, Db.set_self] at hids
  have hkeys : ((db .case_event).map CaseEvent.id).Nodup :=
    List.pairwise_map.mpr (hc.distinct .case_event)
  have htie : chronological e e' = true := by simp [chronological, hdate, hrecorded]
  have htie' : chronological e' e = true := by simp [chronological, hdate, hrecorded]
  let within : CaseEvent → Bool := fun e => e.case_id == case_id
  have hin : within e = true := beq_iff_eq.mpr hcase
  have hin' : within e' = true := beq_iff_eq.mpr hcase'
  exact order_by_tie hkeys he he' hne hin hin' htie htie' hids

theorem notes_told_apart {db : Database} {case_id : Uuid} (hc : schema.Consistent db)
    (hmet : ∀ {rows₁ rows₂ : List CaseEventNote}, rows₁.Perm (db .case_event_note) →
      rows₂.Perm (db .case_event_note) → layout (shown (db.set .case_event_note rows₁) case_id) =
        layout (shown (db.set .case_event_note rows₂) case_id))
    {e : CaseEvent} (he : e ∈ db .case_event) (hcase : e.case_id = case_id)
    {n n' : CaseEventNote} (hn : n ∈ db .case_event_note) (hn' : n' ∈ db .case_event_note)
    (hof : n.event_id = e.id) (hof' : n'.event_id = e.id)
    (hrecorded : n.created_at = n'.created_at) : n = n' := by
  by_contra hne
  have hsame := hmet (perm_pair hn hn' hne) (perm_pair hn' hn (Ne.symm hne))
  have hevents : ∀ rows : List CaseEventNote,
      events_of (db.set .case_event_note rows) case_id = events_of db case_id := by
    intro rows
    unfold events_of
    rw [Db.set_ne _ _ (by decide)]
  -- the entries are the same, so the notes under this one are
  have hmem : e ∈ events_of db case_id :=
    mem_order_by.mpr (List.mem_filter.mpr ⟨he, beq_iff_eq.mpr hcase⟩)
  rw [layout_shown, layout_shown, hevents, hevents] at hsame
  have hids := (Prod.mk.inj (List.map_inj_left.mp hsame e hmem)).2
  simp only [notes_under, Db.set_self] at hids
  have hkeys : ((db .case_event_note).map CaseEventNote.id).Nodup :=
    List.pairwise_map.mpr (hc.distinct .case_event_note)
  let older (a b : CaseEventNote) : Bool := decide (a.created_at ≤ b.created_at)
  let under : CaseEventNote → Bool := fun n => n.event_id == e.id
  have htie : older n n' = true := decide_eq_true (Nat.le_of_eq hrecorded)
  have htie' : older n' n = true := decide_eq_true (Nat.le_of_eq hrecorded.symm)
  have hin : under n = true := beq_iff_eq.mpr hof
  have hin' : under n' = true := beq_iff_eq.mpr hof'
  exact order_by_tie hkeys hn hn' hne hin hin' htie htie' hids

/-- **The chronology.** Two loads that go through always show a case oldest first; they
    are sure to show it in the same order just when the keys tell its rows apart. -/
theorem chronology_stable_iff {C : History Token → Step Token → Prop} {h : History Token}
    (hr : Reaches srv C History.start h) {case_id : Uuid} {first second : Visit Token}
    (h₁ : MayLoad srv first case_id h.world.db) (h₂ : MayLoad srv second case_id h.world.db)
    (hids : first.env.uuid 0 ≠ second.env.uuid 0) :
    StableChronology srv case_id first second h.world ↔ Separated case_id h.world.db := by
  constructor
  · -- the two loads may find any two rows in either order, so each pair is told apart
    intro hstable
    have hmet := @StableChronology.met _ srv _ _ _ _ hstable hr.consistent h₁ h₂ hids
    refine ⟨fun e he e' he' hcase hcase' hdate hrecorded => ?_,
      fun e he hcase n hn n' hn' hof hof' hrecorded => ?_⟩
    · exact entries_told_apart hr.consistent (@hmet .case_event (by decide)) he he' hcase hcase'
        hdate hrecorded
    · exact notes_told_apart hr.consistent (@hmet .case_event_note (by decide)) he hcase hn hn'
        hof hof' hrecorded
  · intro hapart
    refine ⟨fun events w₁ events' w₂ hload₁ hload₂ => ?_,
      fun events w₁ events' w₂ hload₁ hload₂ => ?_⟩
    · obtain ⟨db₁, hdb₁, rfl, hw₁⟩ := hload₁.shows
      obtain ⟨db₂, hdb₂, rfl, _⟩ := hload₂.shows
      -- the first load writes its entry of the audit trail, and no other row
      have hsecond : ∀ t, t ≠ .case_audit_event → (db₂ t).Perm (h.world.db t) := by
        intro t ht
        have hperm := hdb₂ t
        rw [hw₁ t ht] at hperm
        exact hperm.trans (hdb₁ t)
      exact layout_eq_of_shuffled (hdb₁ _) (hsecond _ (by decide)) (hdb₁ _)
        (hsecond _ (by decide)) hapart
    · obtain ⟨db₁, _, rfl, _⟩ := hload₁.shows
      obtain ⟨db₂, _, rfl, _⟩ := hload₂.shows
      exact ⟨oldest_first_shown _ _, oldest_first_shown _ _⟩

/-! ### Two entries of one moment -/

def entry (summary : String) : CreateEventRequest := ⟨summary, 0, none, none⟩

/-- Two entries for one day, the second recorded at `later`. -/
def two_entries (later : Nat) : History Payload :=
  (filed.next Sample.server (.request (Sample.env 5 (104 * second))
    ⟨Sample.bearer (101 * second), .create_event first_case.id (entry "pickup")⟩)).next
    Sample.server (.request (Sample.env 6 later)
      ⟨Sample.bearer (101 * second), .create_event first_case.id (entry "hearing")⟩)

theorem reaches_two_entries (later : Nat) :
    Reaches Sample.server (fun _ _ => True) .start (two_entries later) :=
  .step _ (.step _ (reaches_filed.mono fun _ _ _ => trivial) trivial) trivial

def first_visit : Visit Payload := ⟨Sample.env 7 (106 * second), Sample.bearer (101 * second)⟩

def second_visit : Visit Payload := ⟨Sample.env 8 (107 * second), Sample.bearer (101 * second)⟩

def first_session : UserSession where
  id := 8192#128
  user_id := 4096#128
  refresh_digest := hash_refresh_token Sample.server "2"
  expires_at := refresh_expiry (101 * second)
  revoked_at := none
  last_used_at := some (101 * second)

/-- The first account reads from a state that has its session, its row and its case. -/
theorem may_load_of_rows {v : Visit Payload} {db : Database}
    (hcredentials : v.credentials = Sample.bearer (101 * second))
    (htoken : decode_access_token Sample.server (access_claims 4096#128 8192#128 (101 * second))
      v.env.now = some ⟨4096#128, 8192#128, 1001 * second⟩)
    (hlive : first_session.is_active v.env.now = true) (hup : v.env.faults = [])
    (hcommits : v.env.commits = true)
    (hrows : first_session ∈ db .user_session ∧ first_account.account ∈ db .user_account ∧
      first_case ∈ db .case_)
    (hfresh : ∀ row ∈ db .case_audit_event, CaseAuditEvent.id row ≠ v.env.uuid 0) :
    MayLoad Sample.server v first_case.id db where
  owner := by
    refine ⟨first_account, ⟨⟨_, hcredentials, _, htoken, rfl, rfl⟩,
      ⟨first_session, hrows.1, rfl, hlive⟩, hrows.2.1, rfl⟩, first_case, hrows.2.2, rfl, rfl⟩
  up := by
    rw [hup]
    exact List.not_mem_nil
  commits := hcommits
  fresh := hfresh

/-- What the two readers need of the state. -/
def BothMayRead (db : Database) : Prop :=
  (first_session ∈ db .user_session ∧ first_account.account ∈ db .user_account ∧
    first_case ∈ db .case_) ∧
  ∀ row ∈ db .case_audit_event, CaseAuditEvent.id row ≠ first_visit.env.uuid 0 ∧
    CaseAuditEvent.id row ≠ second_visit.env.uuid 0

theorem may_load_both {db : Database} (h : BothMayRead db) :
    MayLoad Sample.server first_visit first_case.id db ∧
      MayLoad Sample.server second_visit first_case.id db := by
  constructor
  · exact may_load_of_rows rfl (by decide) (by decide) rfl rfl h.1 fun row hrow => (h.2 row hrow).1
  · exact may_load_of_rows rfl (by decide) (by decide) rfl rfl h.1 fun row hrow => (h.2 row hrow).2

/-- Recorded one after the other, the two are always shown in that order. -/
theorem spaced_entries_stable : StableChronology Sample.server first_case.id first_visit
    second_visit (two_entries (105 * second)).world := by
  have hstate : BothMayRead (two_entries (105 * second)).world.db ∧
      (two_entries (105 * second)).world.db .case_event_note = [] ∧
      ∀ e ∈ (two_entries (105 * second)).world.db .case_event,
        ∀ e' ∈ (two_entries (105 * second)).world.db .case_event,
          CaseEvent.created_at e = CaseEvent.created_at e' → e = e' := by
    unfold BothMayRead
    decide +kernel
  obtain ⟨hreadable, hnotes, hevents⟩ := hstate
  refine (chronology_stable_iff (reaches_two_entries _) (may_load_both hreadable).1
    (may_load_both hreadable).2 (by decide)).mpr ⟨fun e he e' he' _ _ _ => hevents e he e' he', ?_⟩
  intro e _ _ n hn
  rw [hnotes] at hn
  cases hn

/-- Recorded in the same moment, they may change places. -/
theorem tied_entries_unstable :
    Reaches Sample.server (fun _ _ => True) .start (two_entries (104 * second)) ∧
    MayLoad Sample.server first_visit first_case.id (two_entries (104 * second)).world.db ∧
    MayLoad Sample.server second_visit first_case.id (two_entries (104 * second)).world.db ∧
    ¬ StableChronology Sample.server first_case.id first_visit second_visit
      (two_entries (104 * second)).world := by
  have hreach := reaches_two_entries (104 * second)
  have hstate : BothMayRead (two_entries (104 * second)).world.db ∧
      ∃ e ∈ (two_entries (104 * second)).world.db .case_event,
        ∃ e' ∈ (two_entries (104 * second)).world.db .case_event,
          (CaseEvent.case_id e = first_case.id ∧ CaseEvent.case_id e' = first_case.id) ∧
          e.occurred_at = e'.occurred_at ∧ e.created_at = e'.created_at ∧ e ≠ e' := by
    unfold BothMayRead
    decide +kernel
  obtain ⟨hreadable, e, he, e', he', ⟨hcase, hcase'⟩, hdate, hrecorded, hne⟩ := hstate
  obtain ⟨h₁, h₂⟩ := may_load_both hreadable
  refine ⟨hreach, h₁, h₂, fun hstable => hne ?_⟩
  have hmet := @StableChronology.met _ _ _ _ _ _ hstable hreach.consistent h₁ h₂ (by decide)
  exact entries_told_apart hreach.consistent (@hmet .case_event (by decide)) he he' hcase hcase'
    hdate hrecorded

end CounselReady
