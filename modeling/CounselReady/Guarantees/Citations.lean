import CounselReady.Sample
import CounselReady.Specs.CaseFile

/-! # Where a Citation Leads

    The constraints make every documentary event and every fact resolve through
    its passage and page to a document, and the timeline cites exactly the
    documentary events. Nothing ties that document to the event's case, or to
    the fact's own document: the path and the column beside it are two keys.
-/

namespace CounselReady

open Relational Framework Handler

variable {Token : Type} {srv : Server Token} {db : Database}

/-! ### From a passage to its document -/

/-- The passage under this id, its page, and the document of the page. -/
structure Resolves (db : Database) (passage_id : Uuid) (p : Passage) (g : DocumentPage)
    (d : Document) : Prop where
  passage : p ∈ db .passage
  passage_id : p.id = passage_id
  page : g ∈ db .document_page
  page_id : g.id = p.page_id
  document : d ∈ db .document
  document_id : d.id = g.document_id

theorem resolves_of_mem (hc : schema.Consistent db) {p : Passage} (hp : p ∈ db .passage) :
    ∃ g d, Resolves db p.id p g d := by
  obtain ⟨g, hg, hgid⟩ := hc.target (k := belongs .document_page Passage.page_id) hp
    List.mem_cons_self rfl
  obtain ⟨d, hd, hdid⟩ := hc.target (k := belongs .document DocumentPage.document_id) hg
    List.mem_cons_self rfl
  exact ⟨g, d, hp, rfl, hg, hgid, hd, hdid⟩

/-- A key is followed to one row at most. -/
theorem Resolves.unique (hc : schema.Consistent db) {id : Uuid} {p p' : Passage}
    {g g' : DocumentPage} {d d' : Document} (h : Resolves db id p g d)
    (h' : Resolves db id p' g' d') : p = p' ∧ g = g' ∧ d = d' := by
  have hp : p = p' := by
    have hpk : schema.pk .passage p = schema.pk .passage p' := h.passage_id.trans h'.passage_id.symm
    exact hc.eq_of_pk h.passage h'.passage hpk
  subst hp
  have hg : g = g' := by
    have hpk : schema.pk .document_page g = schema.pk .document_page g' :=
      h.page_id.trans h'.page_id.symm
    exact hc.eq_of_pk h.page h'.page hpk
  subst hg
  have hd : d = d' := by
    have hpk : schema.pk .document d = schema.pk .document d' :=
      h.document_id.trans h'.document_id.symm
    exact hc.eq_of_pk h.document h'.document hpk
  exact ⟨rfl, rfl, hd⟩

/-- The case of a document is there. -/
theorem case_of_document (hc : schema.Consistent db) {d : Document} (hd : d ∈ db .document) :
    ∃ c ∈ db .case_, Case.id c = d.case_id :=
  hc.target (k := belongs .case_ Document.case_id) hd List.mem_cons_self rfl

/-- An event has a passage exactly when it is documentary. -/
theorem passage_iff_documentary (hf : schema.Fitting db) {e : CaseEvent}
    (he : e ∈ db .case_event) : e.passage_id.isSome = true ↔ e.provenance = .document_derived := by
  have hfits : row_fits .case_event e = none := hf .case_event e he
  have hholds : e.provenance_holds = true := (columns_none.mp hfits).2.2
  unfold CaseEvent.provenance_holds at hholds
  cases hprov : e.provenance with
  | document_derived =>
    simp only [hprov, Bool.and_eq_true] at hholds
    simp [hholds.1]
  | user_asserted =>
    simp only [hprov, Bool.and_eq_true] at hholds
    have hnone : e.passage_id = none := by simpa using hholds.1
    simp [hnone]

theorem event_resolves (hc : schema.Consistent db) {e : CaseEvent} (he : e ∈ db .case_event)
    {id : Uuid} (hid : e.passage_id = some id) : ∃ p g d, Resolves db id p g d := by
  have hkey : (⟨CaseEvent.passage_id, .passage, .cascade⟩ : ForeignKey Row Uuid .case_event) ∈
      schema.keys .case_event := by
    simp [schema, row_keys]
  obtain ⟨p, hp, hpid⟩ := hc.target he hkey hid
  obtain ⟨g, d, hres⟩ := resolves_of_mem hc hp
  have hpid : p.id = id := hpid
  rw [hpid] at hres
  exact ⟨p, g, d, hres⟩

theorem fact_resolves (hc : schema.Consistent db) {f : ExtractedFact}
    (hf : f ∈ db .extracted_fact) : ∃ p g d, Resolves db f.passage_id p g d := by
  obtain ⟨p, hp, hpid⟩ := hc.target (k := belongs .passage ExtractedFact.passage_id) hf
    (List.mem_cons_of_mem _ List.mem_cons_self) rfl
  obtain ⟨g, d, hres⟩ := resolves_of_mem hc hp
  have hpid : p.id = f.passage_id := hpid
  rw [hpid] at hres
  exact ⟨p, g, d, hres⟩

/-! ### The timeline -/

/-- What `owned_document` looks for. -/
def ReadableUnder (db : Database) (case_id document_id : Uuid) : Prop :=
  ∃ d ∈ db .document, Document.id d = document_id ∧ d.case_id = case_id

/-- An entry of the timeline of a case: it cites what its event's passage leads to, and
    the document it names can be read under the case when it is the case's own. -/
inductive Cited (db : Database) (case_id : Uuid) (e : CaseEvent) (r : EventResponse) : Prop where
  | documentary (derived : e.provenance = .document_derived) (id : Uuid) (p : Passage)
      (g : DocumentPage) (d : Document) (passage : e.passage_id = some id)
      (resolves : Resolves db id p g d)
      (citation : r.citation = some ⟨d.id, d.title, g.page_number, p.quote⟩)
      (readable : ReadableUnder db case_id d.id ↔ d.case_id = case_id)
  | asserted (own : e.provenance = .user_asserted) (citation : r.citation = none)

theorem find_unique {α : Type} {l : List α} {f : α → Bool} {a : α} (ha : a ∈ l) (hf : f a = true)
    (hone : ∀ b ∈ l, f b = true → b = a) : l.find? f = some a := by
  cases hfind : l.find? f with
  | none =>
    have hno := List.find?_eq_none.mp hfind a ha
    exact absurd hf hno
  | some b =>
    rw [hone b (List.mem_of_find?_eq_some hfind) (List.find?_some hfind)]

/-- The rows loaded with the events hold what each event's passage leads to. -/
theorem citation_loaded (hc : schema.Consistent db) {events : List CaseEvent} {e : CaseEvent}
    (he : e ∈ events) {id : Uuid} (hid : e.passage_id = some id) {p : Passage} {g : DocumentPage}
    {d : Document} (h : Resolves db id p g d) :
    citation (loaded_of db events) e = some ⟨d.id, d.title, g.page_number, p.quote⟩ := by
  have hp : p ∈ (loaded_of db events).passages := by
    refine List.mem_filter.mpr ⟨h.passage, ?_⟩
    rw [List.contains_iff_mem, h.passage_id]
    exact List.mem_filterMap.mpr ⟨e, he, hid⟩
  have hg : g ∈ (loaded_of db events).pages := by
    refine List.mem_filter.mpr ⟨h.page, ?_⟩
    rw [List.contains_iff_mem, h.page_id]
    exact List.mem_map_of_mem hp
  have hd : d ∈ (loaded_of db events).documents := by
    refine List.mem_filter.mpr ⟨h.document, ?_⟩
    rw [List.contains_iff_mem, h.document_id]
    exact List.mem_map_of_mem hg
  have hfind_p : (loaded_of db events).passages.find? (fun p => p.id == id) = some p := by
    refine find_unique hp (beq_iff_eq.mpr h.passage_id) ?_
    intro p' hp' hid'
    have hpk : schema.pk .passage p' = schema.pk .passage p :=
      (eq_of_beq hid').trans h.passage_id.symm
    exact hc.eq_of_pk (List.mem_filter.mp hp').1 h.passage hpk
  have hfind_g : (loaded_of db events).pages.find? (fun g => g.id == p.page_id) = some g := by
    refine find_unique hg (beq_iff_eq.mpr h.page_id) ?_
    intro g' hg' hid'
    have hpk : schema.pk .document_page g' = schema.pk .document_page g :=
      (eq_of_beq hid').trans h.page_id.symm
    exact hc.eq_of_pk (List.mem_filter.mp hg').1 h.page hpk
  have hfind_d : (loaded_of db events).documents.find? (fun d => d.id == g.document_id) =
      some d := by
    refine find_unique hd (beq_iff_eq.mpr h.document_id) ?_
    intro d' hd' hid'
    have hpk : schema.pk .document d' = schema.pk .document d :=
      (eq_of_beq hid').trans h.document_id.symm
    exact hc.eq_of_pk (List.mem_filter.mp hd').1 h.document hpk
  simp only [citation, hid, Option.bind_some, hfind_p, hfind_g, hfind_d, h.document_id]

theorem cited_of_mem (hc : schema.Consistent db) (hf : schema.Fitting db) {case_id : Uuid}
    {e : CaseEvent} (he : e ∈ events_of db case_id) :
    Cited db case_id e (event_response (loaded_of db (events_of db case_id)) e) := by
  have hmem : e ∈ db .case_event := by
    unfold events_of order_by at he
    rw [List.mem_insertionSort] at he
    exact (List.mem_filter.mp he).1
  have hiff := passage_iff_documentary hf hmem
  cases hid : e.passage_id with
  | none =>
    have hown : e.provenance = .user_asserted := by
      cases hprov : e.provenance with
      | user_asserted => rfl
      | document_derived =>
        rw [hid, hprov] at hiff
        simp at hiff
    refine .asserted hown ?_
    simp [event_response, citation, hid]
  | some id =>
    obtain ⟨p, g, d, hres⟩ := event_resolves hc hmem hid
    refine .documentary (hiff.mp (by rw [hid]; rfl)) id p g d hid hres
      (citation_loaded hc he hid hres) ?_
    constructor
    · rintro ⟨d', hd', hdid, hcase⟩
      have hpk : schema.pk .document d' = schema.pk .document d := hdid
      rwa [← hc.eq_of_pk hd' hres.document hpk]
    · intro hcase
      exact ⟨d, hres.document, rfl, hcase⟩

/-- **Citations lead somewhere.** In every state the constraints admit, a documentary
    event resolves through its passage to a document of some case, and no other event
    has a passage; a fact's passage resolves to a document; and a served timeline cites
    exactly the documentary events, each with the document its passage leads to. -/
theorem citations_resolve {w : Committed} (hc : schema.Consistent w.db)
    (hf : schema.Fitting w.db) :
    (∀ e ∈ w.db .case_event,
      (CaseEvent.provenance e = .document_derived → ∃ id p g d, e.passage_id = some id ∧
        Resolves w.db id p g d ∧ ∃ c ∈ w.db .case_, Case.id c = d.case_id) ∧
      (e.provenance = .user_asserted → e.passage_id = none)) ∧
    (∀ f ∈ w.db .extracted_fact, ∃ p g d, Resolves w.db (ExtractedFact.passage_id f) p g d) ∧
    ∀ (env : Env) (credentials : Option Token) (case_id : Uuid) (status : Nat)
      (rs : List EventResponse),
      (serve srv env ⟨credentials, .list_events case_id⟩ w).1 = .success status (.events rs) →
      List.Forall₂ (Cited w.db case_id) (events_of w.db case_id) rs := by
  refine ⟨?_, fun f hmem => fact_resolves hc hmem, ?_⟩
  · intro e he
    have hiff := passage_iff_documentary hf he
    constructor
    · intro hderived
      obtain ⟨id, hid⟩ := Option.isSome_iff_exists.mp (hiff.mpr hderived)
      obtain ⟨p, g, d, hres⟩ := event_resolves hc he hid
      exact ⟨id, p, g, d, hid, hres, case_of_document hc hres.document⟩
    · intro hown
      rw [hown] at hiff
      simpa using hiff
  · intro env credentials case_id status rs hserved
    rcases @serve_on_cases _ srv env ⟨credentials, .list_events case_id⟩ rfl w with
      ⟨auth, reply, row, db, _, hacc, hresp, _⟩ | ⟨hrefused, _⟩
    · rw [hresp] at hserved
      obtain ⟨_, rfl⟩ := Response.success.inj hserved
      cases hacc with
      -- the answers are made of the rows in order, so it is entry by entry
      | list_events _ c owned =>
        exact List.forall₂_map_right_iff.mpr
          (List.forall₂_same.mpr fun e he => cited_of_mem hc hf he)
    · rw [hserved] at hrefused
      exact hrefused.elim

/-! ### Two keys that disagree -/

def own_event : CaseEvent :=
  ⟨14#128, 0, 10#128, .alleged, .document_derived, some 13#128, none, 0, .day, "filed", none, none⟩

/-- An event of case 10 that cites a passage of case 20. -/
def stray_event : CaseEvent :=
  ⟨15#128, 1, 10#128, .alleged, .document_derived, some 23#128, none, 1, .day, "said", none, none⟩

/-- A fact of document 11 that was read out of document 21. -/
def stray_fact : ExtractedFact := ⟨16#128, 11#128, 23#128, .court, "v1", none⟩

def stray : Database
  | .user_account => [⟨1#128, "a@x.org", none, true, none⟩]
  | .user_session => [⟨2#128, 1#128, "digest", 1000 * second, none, none⟩]
  | .case_ => [⟨10#128, 0, 1#128, "In re A", .florida, none, none⟩,
      ⟨20#128, 0, 1#128, "In re B", .florida, none, none⟩]
  | .document => [⟨11#128, 0, 10#128, "Motion", .motion, .upload, "k", "d", none, 1, .complete⟩,
      ⟨21#128, 0, 20#128, "Order", .order, .upload, "l", "e", none, 1, .complete⟩]
  | .document_page => [⟨12#128, 11#128, 1, "moved", none⟩, ⟨22#128, 21#128, 1, "ordered", none⟩]
  | .passage => [⟨13#128, 12#128, 0, 5, "moved"⟩, ⟨23#128, 22#128, 0, 7, "ordered"⟩]
  | .extracted_fact => [stray_fact]
  | .case_event => [own_event, stray_event]
  | _ => []

theorem stray_sound : schema.Consistent stray ∧ schema.Fitting stray :=
  Sample.sound_of_admissible (by decide +kernel)

/-- The timeline of case 10, as it is served. -/
def stray_timeline : List EventResponse :=
  (events_of stray 10#128).map (event_response (loaded_of stray (events_of stray 10#128)))

theorem stray_timeline_cited :
    List.Forall₂ (Cited stray 10#128) (events_of stray 10#128) stray_timeline := by
  have hall := @citations_resolve _ Sample.server ⟨stray, ⟨fun _ => none, [], []⟩⟩ stray_sound.1
    stray_sound.2
  refine hall.2.2 (Sample.env 1 (100 * second)) (some (access_claims 1#128 2#128 (100 * second)))
    10#128 200 stray_timeline ?_
  decide +kernel

/-- All constraints hold, and the event, the fact and the served citation all leave the
    case or the document they are filed under. -/
theorem stray_citations_leave :
    (schema.Consistent stray ∧ schema.Fitting stray) ∧
    (¬ ∀ e ∈ stray .case_event, CaseEvent.provenance e = .document_derived → ∃ id p g d,
      e.passage_id = some id ∧ Resolves stray id p g d ∧ d.case_id = e.case_id) ∧
    (¬ ∀ f ∈ stray .extracted_fact, ∃ p g d,
      Resolves stray (ExtractedFact.passage_id f) p g d ∧ d.id = f.document_id) ∧
    ¬ ∀ r ∈ stray_timeline, ∀ c, EventResponse.citation r = some c →
      ReadableUnder stray 10#128 c.document_id := by
  have hres : Resolves stray 23#128 ⟨23#128, 22#128, 0, 7, "ordered"⟩
      ⟨22#128, 21#128, 1, "ordered", none⟩
      ⟨21#128, 0, 20#128, "Order", .order, .upload, "l", "e", none, 1, .complete⟩ := by
    constructor <;> decide
  refine ⟨stray_sound, ?_, ?_, ?_⟩
  · intro hall
    obtain ⟨id, p, g, d, hid, h, hcase⟩ := hall stray_event (by decide) rfl
    obtain rfl := Option.some.inj hid
    obtain ⟨_, _, rfl⟩ := h.unique stray_sound.1 hres
    exact absurd hcase (by decide)
  · intro hall
    obtain ⟨p, g, d, h, hdoc⟩ := hall stray_fact (by decide)
    obtain ⟨_, _, rfl⟩ := h.unique stray_sound.1 hres
    exact absurd hdoc (by decide)
  · intro hall
    have hcited : ∃ r ∈ stray_timeline,
        EventResponse.citation r = some ⟨21#128, "Order", 1, "ordered"⟩ := by decide +kernel
    obtain ⟨r, hr, hcit⟩ := hcited
    obtain ⟨d, hd, hid, hcase⟩ := hall r hr _ hcit
    have hnone : ∀ d ∈ stray .document, Document.id d = 21#128 → d.case_id ≠ 10#128 := by
      decide
    exact hnone d hd hid hcase

end CounselReady
