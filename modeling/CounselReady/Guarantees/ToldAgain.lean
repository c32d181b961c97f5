import CounselReady.Framework.Growth
import CounselReady.Guarantees.CaseCabinet
import CounselReady.Guarantees.ErasedIdentity

/-! # Answers Stay True

    What an account has been told of its case files is true for as long as it has
    the account: cases and documents keep their order and only get company at the
    end, an entry of the timeline keeps its words and its notes, a page that has a
    text keeps it. So no later answer takes an earlier one back, where requests are
    served one after another and an answer counts when its COMMIT goes through.

    Growth is a matter of the cabinet (`SameFolder` and the lists of them); the
    server's answers inherit it step by step.
-/

namespace CounselReady

open Relational Framework Handler Prog

variable {Token : Type} {srv : Server Token}

/-! ### How a case file may change -/

/-- A page that has a text keeps it. -/
structure SamePage (p p' : PageResponse) : Prop where
  number : p'.page_number = p.page_number
  kept : has_text p.text = true → p' = p

/-- A document that is read stays so, and nothing else changes. -/
structure SameDocument (d d' : DocumentResponse) : Prop where
  what : d' = { d with ocr_status := d'.ocr_status }
  complete : d.ocr_status = .complete → d'.ocr_status = .complete

structure SamePaper (p p' : Paper) : Prop where
  document : SameDocument p.1 p'.1
  pages : List.Forall₂ SamePage p.2 p'.2

/-- An entry is corrected by notes, and by nothing else. -/
structure SameEntry (e e' : EventResponse) : Prop where
  what : e' = { e with notes := e'.notes }
  notes : e.notes <+: e'.notes

structure SameFolder (f f' : Folder) : Prop where
  case : f'.case = f.case
  documents : GrownAtEnd SamePaper f.documents f'.documents
  timeline : List.SublistForall₂ SameEntry f.timeline f'.timeline

theorem SamePage.refl (p : PageResponse) : SamePage p p := ⟨rfl, fun _ => rfl⟩

theorem SamePage.trans (p p' p'' : PageResponse) (h : SamePage p p') (h' : SamePage p' p'') :
    SamePage p p'' where
  number := h'.number.trans h.number
  kept htext := by
    have hsame := h.kept htext
    subst hsame
    exact h'.kept htext

theorem SameDocument.refl (d : DocumentResponse) : SameDocument d d := ⟨rfl, id⟩

theorem SameDocument.trans (d d' d'' : DocumentResponse) (h : SameDocument d d')
    (h' : SameDocument d' d'') : SameDocument d d'' where
  what := by rw [h'.what, h.what]
  complete := h'.complete ∘ h.complete

theorem SamePaper.refl (p : Paper) : SamePaper p p :=
  ⟨.refl _, List.forall₂_same.mpr fun page _ => .refl page⟩

theorem SamePaper.trans (p p' p'' : Paper) (h : SamePaper p p') (h' : SamePaper p' p'') :
    SamePaper p p'' := by
  refine ⟨h.document.trans _ _ _ h'.document, ?_⟩
  have hpages := h.pages
  have hpages' := h'.pages
  generalize p.2 = l at hpages
  generalize p'.2 = l' at hpages hpages'
  generalize p''.2 = l'' at hpages'
  induction hpages generalizing l'' with
  | nil =>
    cases hpages'
    exact .nil
  | cons hpage _ ih =>
    cases hpages' with
    | cons hpage' hrest' => exact .cons (hpage.trans _ _ _ hpage') (ih _ hrest')

theorem SameEntry.refl (e : EventResponse) : SameEntry e e := ⟨rfl, List.prefix_rfl⟩

theorem SameEntry.trans (e e' e'' : EventResponse) (h : SameEntry e e') (h' : SameEntry e' e'') :
    SameEntry e e'' where
  what := by rw [h'.what, h.what]
  notes := h.notes.trans h'.notes

instance : Std.Refl SameEntry := ⟨SameEntry.refl⟩
instance : IsTrans EventResponse SameEntry := ⟨SameEntry.trans⟩

theorem SameFolder.refl (f : Folder) : SameFolder f f :=
  ⟨rfl, .refl SamePaper.refl _, (List.Sublist.refl _).sublistForall₂⟩

theorem SameFolder.trans (f f' f'' : Folder) (h : SameFolder f f') (h' : SameFolder f' f'') :
    SameFolder f f'' where
  case := h'.case.trans h.case
  documents := h.documents.trans SamePaper.trans h'.documents
  timeline := IsTrans.trans _ _ _ h.timeline h'.timeline

/-! ### The cabinet only grows -/

/-- A document that says it is read has a text on every page. -/
def ReadThrough (paper : Paper) : Prop :=
  paper.1.ocr_status = .complete → ∀ page ∈ paper.2, has_text page.text = true

def AllReadThrough (cabinet : Cabinet) : Prop :=
  ∀ account, ∀ f ∈ cabinet account, ∀ paper ∈ f.documents, ReadThrough paper

/-- An account's drawer, later. -/
abbrev Later (drawer drawer' : List Folder) : Prop := GrownAtEnd SameFolder drawer drawer'

theorem Later.refl (drawer : List Folder) : Later drawer drawer :=
  GrownAtEnd.refl SameFolder.refl drawer

theorem same_page_read (results : List OcrPage) (page : PageResponse) :
    SamePage page (read_page results page) := by
  unfold read_page
  split
  · exact .refl page
  · next hblank =>
    cases by_number results page.page_number with
    | none => exact .refl page
    | some result => exact ⟨rfl, fun htext => absurd htext hblank⟩

theorem same_paper_read (results : List OcrPage) {paper : Paper} (h : ReadThrough paper) :
    SamePaper paper (read_paper results paper) := by
  refine ⟨⟨rfl, fun hcomplete => ?_⟩, ?_⟩
  · -- no page of it is blank, so none is read again
    have hall : (paper.2.map (read_page results)).all (fun page => has_text page.text) = true := by
      refine List.all_eq_true.mpr fun page hpage => ?_
      obtain ⟨page₀, hpage₀, rfl⟩ := List.mem_map.mp hpage
      have htext := h hcomplete page₀ hpage₀
      rw [(same_page_read results page₀).kept htext]
      exact htext
    unfold read_paper
    simp only [hall, if_true]
  · unfold read_paper
    rw [List.forall₂_map_right_iff]
    exact List.forall₂_same.mpr fun page _ => same_page_read results page

theorem same_folder_file (paper : Paper) (f : Folder) : SameFolder f (f.file paper) where
  case := rfl
  documents := .append SamePaper.refl _ _
  timeline := (List.Sublist.refl _).sublistForall₂

theorem same_folder_record (entry : EventResponse) (f : Folder) : SameFolder f (f.record entry) where
  case := rfl
  documents := .refl SamePaper.refl _
  timeline := (sublist_insert_last entry f.timeline).sublistForall₂

theorem same_entry_noted (event_id : Uuid) (note : NoteResponse) (e : EventResponse) :
    SameEntry e (if e.id = event_id then { e with notes := e.notes ++ [note] } else e) := by
  split
  · exact ⟨rfl, List.prefix_append _ _⟩
  · exact .refl e

theorem same_folder_annotate (event_id : Uuid) (note : NoteResponse) (f : Folder) :
    SameFolder f (f.annotate event_id note) where
  case := rfl
  documents := .refl SamePaper.refl _
  timeline := by
    refine List.sublistForall₂_iff.mpr ⟨_, ?_, List.Sublist.refl _⟩
    unfold Folder.annotate
    rw [List.forall₂_map_right_iff]
    exact List.forall₂_same.mpr fun e _ => same_entry_noted event_id note e

theorem same_folder_read (document_id : Uuid) (results : List OcrPage) {f : Folder}
    (h : ∀ paper ∈ f.documents, ReadThrough paper) :
    SameFolder f (f.read_in document_id results) where
  case := rfl
  documents := by
    refine GrownAtEnd.of_map fun paper hpaper => ?_
    split
    · exact same_paper_read results (h paper hpaper)
    · exact .refl paper
  timeline := (List.Sublist.refl _).sublistForall₂

theorem read_through_filed (id : Uuid) (upload : Upload) (extraction : ExtractionResult) :
    ReadThrough (filed_paper id upload extraction) := by
  intro hcomplete page hpage
  unfold filed_paper at hcomplete hpage
  obtain ⟨page₀, hpage₀, rfl⟩ := List.mem_map.mp hpage
  by_cases hblank : extraction.needs_ocr = true
  · simp [hblank] at hcomplete
  · have hnone := List.any_eq_false.mp (Bool.not_eq_true _ ▸ hblank) page₀ hpage₀
    simpa using hnone

/-- One case file is changed; the drawer is a later one. -/
theorem later_amend {cabinet : Cabinet} {account case_id : Uuid} {change : Folder → Folder}
    (h : ∀ f, SameFolder f (change f)) :
    Later (cabinet account) (cabinet.amend account case_id change account) := by
  unfold Cabinet.amend Cabinet.put
  rw [Function.update_self]
  refine GrownAtEnd.of_map fun f _ => ?_
  split
  · exact h f
  · exact .refl f

theorem amend_other {cabinet : Cabinet} {account other case_id : Uuid} {change : Folder → Folder}
    (h : other ≠ account) : cabinet.amend account case_id change other = cabinet other :=
  Function.update_of_ne h _ _

section does
variable {reading : Bytes → Except Exc ExtractionResult} {cabinet cabinet' : Cabinet}
  {account id : Uuid} {now : Nat} {route : Route Token} {reply : Reply Token}

/-- What an answer does to the drawers: nothing, one folder more, or one case file changed
    for a later one, by a document that is read through if it is filed as read. -/
theorem serve_changes (h : cabinet.serve reading id now account route = some (reply, cabinet')) :
    cabinet' = cabinet ∨
    (∃ case, cabinet' = cabinet.put account (cabinet account ++ [empty_folder case])) ∨
    ∃ case_id change, cabinet' = cabinet.amend account case_id change ∧
      (∀ f, SameFolder f (change f)) ∧
      ∀ f : Folder, (∀ paper ∈ f.documents, ReadThrough paper) →
        ∀ paper ∈ (change f).documents, ReadThrough paper := by
  cases route <;> try cases (h : (none : Option (Reply Token × Cabinet)) = some (reply, cabinet'))
  case create_case title court case_number =>
    obtain ⟨_, rfl⟩ := Prod.mk.inj (Option.some.inj h)
    exact .inr (.inl ⟨_, rfl⟩)
  case list_cases =>
    obtain ⟨_, rfl⟩ := Prod.mk.inj (Option.some.inj h)
    exact .inl rfl
  case read_case case_id =>
    obtain ⟨f, _, hf⟩ := Option.map_eq_some_iff.mp h
    exact .inl (Prod.mk.inj hf).2.symm
  case list_documents case_id =>
    obtain ⟨f, _, hf⟩ := Option.map_eq_some_iff.mp h
    exact .inl (Prod.mk.inj hf).2.symm
  case read_document case_id document_id =>
    obtain ⟨f, _, hf⟩ := Option.bind_eq_some_iff.mp h
    obtain ⟨paper, _, hpaper⟩ := Option.bind_eq_some_iff.mp hf
    exact .inl (Prod.mk.inj (Option.some.inj hpaper)).2.symm
  case upload_document case_id upload =>
    obtain ⟨f, _, hf⟩ := Option.bind_eq_some_iff.mp h
    obtain ⟨extraction, _, hextraction⟩ := Option.bind_eq_some_iff.mp hf
    obtain ⟨_, rfl⟩ := Prod.mk.inj (Option.some.inj hextraction)
    -- filed as read only where no page of the extraction is blank
    refine .inr (.inr ⟨_, _, rfl, same_folder_file _, fun f hf paper hpaper => ?_⟩)
    rcases List.mem_append.mp hpaper with hold | hnew
    · exact hf paper hold
    · obtain rfl := List.mem_singleton.mp hnew
      exact read_through_filed id upload extraction
  case list_events case_id =>
    obtain ⟨f, _, hf⟩ := Option.map_eq_some_iff.mp h
    exact .inl (Prod.mk.inj hf).2.symm
  case create_event case_id body =>
    obtain ⟨f, _, hf⟩ := Option.bind_eq_some_iff.mp h
    obtain ⟨_, rfl⟩ := Prod.mk.inj (Option.some.inj hf)
    exact .inr (.inr ⟨_, _, rfl, same_folder_record _, fun f hf => hf⟩)
  case create_note case_id event_id body =>
    obtain ⟨f, _, hf⟩ := Option.bind_eq_some_iff.mp h
    obtain ⟨entry, _, hentry⟩ := Option.bind_eq_some_iff.mp hf
    obtain ⟨_, rfl⟩ := Prod.mk.inj (Option.some.inj hentry)
    exact .inr (.inr ⟨_, _, rfl, same_folder_annotate event_id _, fun f hf => hf⟩)

theorem later_serve (h : cabinet.serve reading id now account route = some (reply, cabinet'))
    (who : Uuid) : Later (cabinet who) (cabinet' who) := by
  rcases serve_changes h with rfl | ⟨case, rfl⟩ | ⟨case_id, change, rfl, hchange, _⟩
  · exact .refl _
  · by_cases hwho : who = account
    · subst hwho
      unfold Cabinet.put
      rw [Function.update_self]
      exact GrownAtEnd.append SameFolder.refl _ _
    · unfold Cabinet.put
      rw [Function.update_of_ne hwho]
      exact .refl _
  · by_cases hwho : who = account
    · subst hwho
      exact later_amend hchange
    · rw [amend_other hwho]
      exact .refl _

/-- **Step lemma.** Only an erasure takes anything out of a drawer. -/
theorem later_does {glimpse : Glimpse Token} (h : Cabinet.Does reading cabinet glimpse cabinet')
    (hread : AllReadThrough cabinet) {who : Uuid} (hkept : glimpse ≠ .erased who) :
    Later (cabinet who) (cabinet' who) := by
  cases h with
  | answered serve => exact later_serve serve who
  | erased account =>
    have hwho : who ≠ account := fun heq => hkept (heq ▸ rfl)
    unfold Cabinet.put
    rw [Function.update_of_ne hwho]
    exact .refl _
  | read_in document_id results =>
    exact GrownAtEnd.of_map fun f hf => same_folder_read document_id results (hread who f hf)
  | quiet => exact .refl _

theorem read_through_read (results : List OcrPage) (paper : Paper) :
    ReadThrough (read_paper results paper) := by
  intro hcomplete page hpage
  unfold read_paper at hcomplete hpage
  by_cases hall : (paper.2.map (read_page results)).all (fun page => has_text page.text) = true
  · exact List.all_eq_true.mp hall page hpage
  · simp [hall] at hcomplete

theorem all_read_through_does {glimpse : Glimpse Token}
    (h : Cabinet.Does reading cabinet glimpse cabinet') (hread : AllReadThrough cabinet) :
    AllReadThrough cabinet' := by
  intro who f hf paper hpaper
  cases h with
  | answered serve =>
    rcases serve_changes serve with rfl | ⟨case, rfl⟩ | ⟨case_id, change, rfl, _, hchange⟩
    · exact hread who f hf paper hpaper
    · unfold Cabinet.put at hf
      rw [Function.update_apply] at hf
      split at hf
      · rcases List.mem_append.mp hf with hold | hnew
        · exact hread _ f hold paper hpaper
        · obtain rfl := List.mem_singleton.mp hnew
          cases hpaper
      · exact hread who f hf paper hpaper
    · unfold Cabinet.amend Cabinet.put at hf
      rw [Function.update_apply] at hf
      split at hf
      · obtain ⟨f₀, hf₀, rfl⟩ := List.mem_map.mp hf
        have hold := hread _ f₀ hf₀
        split at hpaper
        · exact hchange f₀ hold paper hpaper
        · exact hold paper hpaper
      · exact hread who f hf paper hpaper
  | erased account =>
    unfold Cabinet.put at hf
    rw [Function.update_apply] at hf
    split at hf
    · cases hf
    · exact hread who f hf paper hpaper
  | read_in document_id results =>
    obtain ⟨f₀, hf₀, rfl⟩ := List.mem_map.mp hf
    obtain ⟨paper₀, hpaper₀, rfl⟩ := List.mem_map.mp hpaper
    -- OCR sets the status by the pages it leaves
    split
    · exact read_through_read results paper₀
    · exact hread who f₀ hf₀ paper₀ hpaper₀
  | quiet => exact hread who f hf paper hpaper

end does

/-! ### What an answer says -/

/-- The drawer has a case file with this id, and something is true of it. -/
def Within (drawer : List Folder) (case_id : Uuid) (P : Folder → Prop) : Prop :=
  ∃ f ∈ drawer, f.case.id = case_id ∧ P f

/-- The answer is true of the drawer, or was and the drawer is a later one. -/
def Told (drawer : List Folder) : Route Token → Reply Token → Prop
  | .create_case _ _ _, .case_ c => Within drawer c.id (fun f => f.case = c)
  | .list_cases, .cases cs => GrownAtEnd Eq cs (drawer.map Folder.case)
  | .read_case _, .case_ c => Within drawer c.id (fun f => f.case = c)
  | .upload_document case_id _, .document d =>
      Within drawer case_id fun f => ∃ paper ∈ f.documents, SameDocument d paper.1
  | .list_documents case_id, .documents ds =>
      Within drawer case_id fun f => GrownAtEnd SameDocument ds (f.documents.map Prod.fst)
  | .read_document case_id _, .document_detail d pages =>
      Within drawer case_id fun f => ∃ paper ∈ f.documents, SamePaper (d, pages) paper
  | .create_event case_id _, .event e =>
      Within drawer case_id fun f => ∃ e' ∈ f.timeline, SameEntry e e'
  | .list_events case_id, .events es =>
      Within drawer case_id fun f => List.SublistForall₂ SameEntry es f.timeline
  | .create_note case_id event_id _, .note n =>
      Within drawer case_id fun f => ∃ e ∈ f.timeline, e.id = event_id ∧ n ∈ e.notes
  | _, _ => False

theorem Within.later {drawer drawer' : List Folder} {case_id : Uuid} {P P' : Folder → Prop}
    (h : Within drawer case_id P) (hlater : Later drawer drawer')
    (hP : ∀ f f', SameFolder f f' → P f → P' f') : Within drawer' case_id P' := by
  obtain ⟨f, hf, hid, hPf⟩ := h
  obtain ⟨f', hf', hsame⟩ := hlater.mem hf
  exact ⟨f', hf', hsame.case ▸ hid, hP f f' hsame hPf⟩

/-- What is told of a drawer is true of a later one. -/
theorem Told.later {drawer drawer' : List Folder} {route : Route Token} {reply : Reply Token}
    (h : Told drawer route reply) (hlater : Later drawer drawer') : Told drawer' route reply := by
  unfold Told at h
  split at h
  · exact Within.later h hlater fun f f' hsame hc => hsame.case.trans hc
  · exact GrownAtEnd.trans (fun _ _ _ => Eq.trans) h (hlater.map fun f f' hsame => hsame.case.symm)
  · exact Within.later h hlater fun f f' hsame hc => hsame.case.trans hc
  · refine Within.later h hlater fun f f' hsame hpaper => ?_
    obtain ⟨paper, hmem, hd⟩ := hpaper
    obtain ⟨paper', hmem', hpapers⟩ := hsame.documents.mem hmem
    exact ⟨paper', hmem', hd.trans _ _ _ hpapers.document⟩
  · refine Within.later h hlater fun f f' hsame hds => ?_
    exact hds.trans SameDocument.trans (hsame.documents.map fun _ _ hpapers => hpapers.document)
  · refine Within.later h hlater fun f f' hsame hpaper => ?_
    obtain ⟨paper, hmem, hd⟩ := hpaper
    obtain ⟨paper', hmem', hpapers⟩ := hsame.documents.mem hmem
    exact ⟨paper', hmem', hd.trans _ _ _ hpapers⟩
  · refine Within.later h hlater fun f f' hsame hentry => ?_
    obtain ⟨e', hmem, he⟩ := hentry
    obtain ⟨e'', hmem', hentries⟩ := exists_of_among hsame.timeline hmem
    exact ⟨e'', hmem', he.trans _ _ _ hentries⟩
  · refine Within.later h hlater fun f f' hsame hes => ?_
    exact IsTrans.trans _ _ _ hes hsame.timeline
  · refine Within.later h hlater fun f f' hsame hentry => ?_
    obtain ⟨e, hmem, hid, hn⟩ := hentry
    obtain ⟨e', hmem', hentries⟩ := exists_of_among hsame.timeline hmem
    refine ⟨e', hmem', ?_, hentries.notes.subset hn⟩
    rw [hentries.what]
    exact hid
  · exact h.elim

theorem folder_mem {cabinet : Cabinet} {account case_id : Uuid} {f : Folder}
    (h : cabinet.folder account case_id = some f) : f ∈ cabinet account ∧ f.case.id = case_id := by
  unfold Cabinet.folder at h
  have hid := List.find?_some h
  exact ⟨List.mem_of_find?_eq_some h, beq_iff_eq.mp hid⟩

/-- What is changed is where it was. -/
theorem within_amend {cabinet : Cabinet} {account case_id : Uuid} {change : Folder → Folder}
    {f : Folder} (h : cabinet.folder account case_id = some f) (hcase : (change f).case = f.case)
    {P : Folder → Prop} (hP : P (change f)) :
    Within (cabinet.amend account case_id change account) case_id P := by
  obtain ⟨hmem, hid⟩ := folder_mem h
  refine ⟨change f, ?_, hcase ▸ hid, hP⟩
  unfold Cabinet.amend Cabinet.put
  rw [Function.update_self]
  exact List.mem_map.mpr ⟨f, hmem, if_pos hid⟩

/-- **Every answer is true of the drawer it leaves.** -/
theorem told_of_serve {reading : Bytes → Except Exc ExtractionResult} {cabinet cabinet' : Cabinet}
    {account id : Uuid} {now : Nat} {route : Route Token} {reply : Reply Token}
    (h : cabinet.serve reading id now account route = some (reply, cabinet')) :
    Told (cabinet' account) route reply := by
  cases route <;> try cases (h : (none : Option (Reply Token × Cabinet)) = some (reply, cabinet'))
  case create_case title court case_number =>
    obtain ⟨rfl, rfl⟩ := Prod.mk.inj (Option.some.inj h)
    refine ⟨empty_folder _, ?_, rfl, rfl⟩
    unfold Cabinet.put
    rw [Function.update_self]
    exact List.mem_append_right _ List.mem_cons_self
  case list_cases =>
    obtain ⟨rfl, rfl⟩ := Prod.mk.inj (Option.some.inj h)
    exact GrownAtEnd.refl (fun _ => rfl) _
  case read_case case_id =>
    obtain ⟨f, hf, hreply⟩ := Option.map_eq_some_iff.mp h
    obtain ⟨rfl, rfl⟩ := Prod.mk.inj hreply
    exact ⟨f, (folder_mem hf).1, rfl, rfl⟩
  case list_documents case_id =>
    obtain ⟨f, hf, hreply⟩ := Option.map_eq_some_iff.mp h
    obtain ⟨rfl, rfl⟩ := Prod.mk.inj hreply
    exact ⟨f, (folder_mem hf).1, (folder_mem hf).2, GrownAtEnd.refl SameDocument.refl _⟩
  case read_document case_id document_id =>
    obtain ⟨f, hf, hpaper⟩ := Option.bind_eq_some_iff.mp h
    obtain ⟨paper, hfound, hreply⟩ := Option.bind_eq_some_iff.mp hpaper
    obtain ⟨rfl, rfl⟩ := Prod.mk.inj (Option.some.inj hreply)
    exact ⟨f, (folder_mem hf).1, (folder_mem hf).2, paper, List.mem_of_find?_eq_some hfound,
      .refl paper⟩
  case upload_document case_id upload =>
    -- a write is answered by what it has just put in: it is the last of its list
    obtain ⟨f, hf, hread⟩ := Option.bind_eq_some_iff.mp h
    obtain ⟨extraction, _, hreply⟩ := Option.bind_eq_some_iff.mp hread
    obtain ⟨rfl, rfl⟩ := Prod.mk.inj (Option.some.inj hreply)
    exact within_amend hf rfl ⟨_, List.mem_append_right _ List.mem_cons_self, .refl _⟩
  case list_events case_id =>
    obtain ⟨f, hf, hreply⟩ := Option.map_eq_some_iff.mp h
    obtain ⟨rfl, rfl⟩ := Prod.mk.inj hreply
    exact ⟨f, (folder_mem hf).1, (folder_mem hf).2, (List.Sublist.refl _).sublistForall₂⟩
  case create_event case_id body =>
    obtain ⟨f, hf, hreply⟩ := Option.bind_eq_some_iff.mp h
    obtain ⟨rfl, rfl⟩ := Prod.mk.inj (Option.some.inj hreply)
    exact within_amend hf rfl ⟨stated id body, mem_insert_last.mpr (.inl rfl), .refl _⟩
  case create_note case_id event_id body =>
    obtain ⟨f, hf, hentry⟩ := Option.bind_eq_some_iff.mp h
    obtain ⟨entry, hfound, hreply⟩ := Option.bind_eq_some_iff.mp hentry
    obtain ⟨rfl, rfl⟩ := Prod.mk.inj (Option.some.inj hreply)
    have hsome := List.find?_some hfound
    have hid : entry.id = event_id := beq_iff_eq.mp hsome
    refine within_amend hf rfl ⟨_, List.mem_map.mpr ⟨entry, List.mem_of_find?_eq_some hfound,
      if_pos hid⟩, hid, ?_⟩
    exact List.mem_append_right _ List.mem_cons_self

/-! ### The run -/

/-- A step shows one thing. -/
theorem Glimpsed.unique {w : Committed} {s : Step Token} {m m' : Glimpse Token}
    (hc : schema.Consistent w.db) (h : Glimpsed srv w s m) (h' : Glimpsed srv w s m') : m = m' := by
  have hapart : ∀ route : Route Token, route.on_cases = true → route.deletes_account = true →
      False := by
    intro route hcases hdeletes
    cases route <;> first
      | exact absurd hcases Bool.false_ne_true
      | exact absurd hdeletes Bool.false_ne_true
  have hsucceeds : ∀ {resp : Response Token}, resp.refuses → ¬ resp.succeeded = true := by
    intro resp hr hs
    rw [hr.not_succeeded] at hs
    cases hs
  -- what a step shows is told by its route, its answer and its COMMIT; two that differ would
  -- disagree on one of the three
  cases h with
  | answered route account committed success =>
    cases h' with
    | answered route' account' _ success' =>
      obtain rfl := account.unique hc account'
      rw [success] at success'
      cases success'
      rfl
    | erased deletes => exact (hapart _ route deletes).elim
    | refused refused =>
      rw [success] at refused
      exact refused.elim
    | lost lost => rw [committed] at lost; cases lost
    | elsewhere other => rw [route] at other; cases other
  | erased deletes account committed success =>
    cases h' with
    | answered route => exact (hapart _ route deletes).elim
    | erased _ account' =>
      obtain rfl := account.unique hc account'
      rfl
    | refused refused => exact (hsucceeds refused success).elim
    | lost lost => rw [committed] at lost; cases lost
    | elsewhere _ kept => rw [deletes] at kept; cases kept
  | refused refused =>
    cases h' with
    | answered _ _ _ success =>
      rw [success] at refused
      exact refused.elim
    | erased _ _ _ success => exact (hsucceeds refused success).elim
    | refused => rfl
    | lost => rfl
    | elsewhere => rfl
  | lost lost =>
    cases h' with
    | answered _ _ committed => rw [committed] at lost; cases lost
    | erased _ _ committed => rw [committed] at lost; cases lost
    | refused => rfl
    | lost => rfl
    | elsewhere => rfl
  | elsewhere other kept =>
    cases h' with
    | answered route => rw [route] at other; cases other
    | erased deletes => rw [deletes] at kept; cases kept
    | refused => rfl
    | lost => rfl
    | elsewhere => rfl
  | read_in done stored read =>
    cases h' with
    | read_in done' stored' read' =>
      obtain ⟨d, hd, hid, hdata⟩ := stored
      obtain ⟨d', hd', hid', hdata'⟩ := stored'
      obtain rfl : d = d' := hc.eq_of_pk hd hd' (hid.trans hid'.symm)
      rw [hdata] at hdata'
      cases hdata'
      rw [read] at read'
      cases read'
      rfl
    | unread failed => rw [done] at failed; cases failed
  | unread failed =>
    cases h' with
    | read_in done => rw [failed] at done; cases done
    | unread => rfl

/-- The account itself goes. -/
theorem not_account_of_without_account {db : Database} {id : Uuid} {a : UserAccount}
    (h : a ∈ without_account db id .user_account) : a.id ≠ id := by
  obtain ⟨a₀, ha₀, hstay, hsame⟩ := Schema.mem_effect_remove.mp h
  rw [rigid (by decide)] at hsame
  subst hsame
  rintro rfl
  exact hstay (Schema.mem_doomed_self _ _ _)

section run
variable {w w' : Committed} {s s' : Step Token} {A : Uuid}
  {past between earlier : List (Step Token × Committed)}

/-- The server as a labelled system, its steps orderly. -/
abbrev OrderlyRun (srv : Server Token) : List (Step Token × Committed) → Committed → Prop :=
  Run (fun w s w' => w' = s.run srv w) (fun past w s => Orderly srv ⟨past, w⟩ s) Committed.empty

theorem OrderlyRun.shown (hr : OrderlyRun srv past w) (hs : Orderly srv ⟨past, w⟩ s) :
    ∃ m, Glimpsed srv w s m ∧
      Cabinet.Does (reading srv) (cabinet_of w.db) m (cabinet_of (s.run srv w).db) := by
  have hreach := reaches_of_labelled hr
  exact (mirrored hreach hreach.behind hs).1

/-- What is shown of a step is what the cabinet does. -/
theorem OrderlyRun.does (hr : OrderlyRun srv past w) (hs : Orderly srv ⟨past, w⟩ s)
    {m : Glimpse Token} (hm : Glimpsed srv w s m) :
    Cabinet.Does (reading srv) (cabinet_of w.db) m (cabinet_of (s.run srv w).db) := by
  obtain ⟨m', hm', hdoes⟩ := hr.shown hs
  obtain rfl := hm.unique (reaches_of_labelled hr).consistent hm'
  exact hdoes

theorem OrderlyRun.read_through (hr : OrderlyRun srv past w) :
    AllReadThrough (cabinet_of w.db) := by
  refine Run.invariant (I := fun _ w => AllReadThrough (cabinet_of w.db)) hr ?_ ?_
  · intro account f hf
    cases hf
  · intro past w s w' hr hread hs hw
    subst hw
    obtain ⟨m, _, hdoes⟩ := OrderlyRun.shown hr hs
    exact all_read_through_does hdoes hread

/-- An account that is gone does not come back: ids are drawn once. -/
theorem gone_for_good (hr : OrderlyRun srv (between ++ (s, w) :: earlier) w')
    (hthere : ∃ a ∈ w.db .user_account, UserAccount.id a = A)
    (hgone : ∀ a ∈ (s.run srv w).db .user_account, UserAccount.id a ≠ A) :
    ∀ a ∈ w'.db .user_account, UserAccount.id a ≠ A := by
  refine hr.carried (P := fun w => ∀ a ∈ w.db .user_account, UserAccount.id a ≠ A) ?_ ?_
  · intro w₁ _ _ hw
    subst hw
    exact hgone
  · intro later l w₂ mid w₃ _ _ horderly hw habsent a ha hid
    subst hw
    rcases (l.run_drawn srv w₂).account a ha with ⟨a₀, ha₀, heq⟩ | ⟨_, hdrew⟩
    · exact habsent a₀ ha₀ (heq.symm.trans hid)
    · obtain ⟨a₁, ha₁, hid₁⟩ := hthere
      cases l with
      | ocr env document_id engine => exact hdrew.elim
      | request env req =>
        obtain ⟨i, hi⟩ := hdrew
        -- the state in which the account was there is one of the run's
        have hw : w ∈ (History.worlds ⟨mid ++ (s, w) :: earlier, w₂⟩) := by
          refine List.mem_cons_of_mem _ (List.mem_map.mpr ⟨(s, w), ?_, rfl⟩)
          exact List.mem_append_right _ List.mem_cons_self
        exact (horderly.fresh env req rfl).ids w hw .user_account a₁ ha₁ i
          (hid₁.trans (hid.symm.trans hi))

/-- Whoever is answered later has not been erased before. -/
theorem not_erased (hr : OrderlyRun srv (between ++ (s, w) :: earlier) w')
    (hlater : ∃ a ∈ w'.db .user_account, UserAccount.id a = A) :
    ¬ Glimpsed srv w s (.erased A) := by
  intro herased
  have hc := (reaches_of_labelled hr.split.1).consistent
  obtain ⟨a, ha, hid⟩ := hlater
  cases herased with
  | @erased env req auth deletes account committed success =>
    refine gone_for_good hr ⟨auth.account, account.account, rfl⟩ ?_ a ha hid
    rcases @serve_erased _ srv env w _ deletes hc with
      ⟨auth', db, hauth, hcdb, _, _, hdb⟩ | hrefused
    · obtain rfl := account.unique hc hauth
      have hafter : ((Step.request env req).run srv w).db =
        without_account db auth.account.id := hdb
      intro a' ha' hid'
      rw [hafter] at ha'
      exact not_account_of_without_account ha' hid'
    · have hdone := serve_succeeded_iff.mpr ⟨committed, success⟩
      rw [hrefused.not_succeeded] at hdone
      cases hdone

end run

/-! ### An entry told again -/

/-- A success that is committed is somebody's. -/
theorem glimpsed_of_succeeded {env : Env} {req : Request Token} {w : Committed}
    (hroute : req.route.on_cases = true) (h : (serve srv env req w).1.succeeded = true) :
    ∃ auth reply, SignedIn srv env req.credentials w.db auth ∧
      Glimpsed srv w (.request env req)
        (.answered auth.account.id (env.uuid 0) env.now req.route reply) := by
  rcases @serve_on_cases _ srv env _ hroute w with
    ⟨auth, reply, _, _, hauth, _, hsuccess, _⟩ | ⟨hrefused, _⟩
  · obtain ⟨hcommits, hreply⟩ := serve_success_iff.mp hsuccess
    exact ⟨auth, reply, hauth, .answered hroute hauth hcommits hreply⟩
  · rw [hrefused.not_succeeded] at h
    cases h

/-- The exchange of `filing` is recorded, and later the timeline is looked at. -/
def exchange_recorded : Prop :=
  Sample.honest filing = true ∧
    (serve Sample.server (Sample.env 5 (104 * second)) ⟨Sample.bearer (101 * second),
      .create_event 12288#128 ⟨"exchange", 2000, none, none⟩⟩
      (Sample.play (filing.drop 4)).world).1.succeeded = true ∧
    (serve Sample.server (Sample.env 8 (107 * second)) ⟨Sample.bearer (101 * second),
      .list_events 12288#128⟩ (Sample.play (filing.drop 1)).world).1.succeeded = true ∧
    ∀ w ∈ [(Sample.play (filing.drop 4)).world, (Sample.play (filing.drop 1)).world],
      ∀ a ∈ w.db .user_account, UserAccount.id a = 4096#128

end CounselReady
