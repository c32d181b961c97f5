import CounselReady.Specs.Deletion
import CounselReady.Specs.Upload
import CounselReady.Sample

/-! # Documents and Their Bytes

    A document's row and its bytes live in two stores, and only one of them
    takes part in the transaction.

    * An upload stores the bytes first. Whatever fails after that leaves an
      object without a row, under a key no row refers to.
    * A deletion removes the objects inside the request, before its COMMIT. When
      that COMMIT fails, the rows stay and their bytes are gone.

    So the documents are backed in every state of a run in which no such COMMIT
    fails and requests are served one after another (`documents_stay_backed`).
-/

namespace CounselReady

open Relational Framework

variable {Token : Type} {srv : Server Token}

/-! ### The two stores -/

/-- The document's key holds bytes with the document's hash. -/
def Backed (srv : Server Token) (store : Store) (d : Document) : Prop :=
  ∃ data, store d.storage_key = some data ∧ content_hash srv data = d.content_hash

/-- The key is the one its case and its hash give. -/
def CanonicalKey (d : Document) : Prop :=
  d.storage_key = storage_key d.case_id.str d.content_hash

/-- Every document is backed. -/
def AllBacked (srv : Server Token) (w : Committed) : Prop :=
  ∀ d ∈ w.db .document, Backed srv w.ext.store d

def AllCanonical (db : Database) : Prop := ∀ d ∈ db .document, CanonicalKey d

/-- Documents are inserted under their own keys, and keep them. -/
theorem Reaches.canonical {C : History Token → Step Token → Prop} {h : History Token}
    (hr : Reaches srv C History.start h) : AllCanonical h.world.db := by
  induction hr with
  | refl =>
    intro d hd
    cases hd
  | step s _ _ ih =>
    refine Step.run_db_invariant ?_ ih
    intro w db hp _ hdb d hd
    rcases Schema.mem_effect_resolve (rigid (by decide)) hd with hold | rfl |
      ⟨id, p, r₀, hr₀, rfl, _, rfl⟩
    · exact hdb d hold
    · cases s with
      | ocr env document_id engine => exact hp.elim
      | request env req => exact hp.2.2
    · cases p
      exact hdb r₀ hr₀

/-- Two documents under one key belong to one case. -/
theorem case_of_shared_key {d d' : Document} (h : CanonicalKey d) (h' : CanonicalKey d')
    (hkey : d.storage_key = d'.storage_key) :
    d.case_id = d'.case_id ∧ d.content_hash = d'.content_hash := by
  unfold CanonicalKey at h h'
  exact storage_key_inj (h.symm.trans (hkey.trans h'))

/-! ### Steps that leave the objects alone -/

/-- The documents are those of `db`, up to their OCR status, and the objects are
    those of `store`. -/
structure Unmoved (db : Database) (store : Store) (s : Session) : Prop where
  documents : ∀ d ∈ s.db .document, ∃ d₀ ∈ db .document, Document.case_id d = d₀.case_id ∧
    d.storage_key = d₀.storage_key ∧ d.content_hash = d₀.content_hash
  kept : ∀ d₀ ∈ db .document, ∃ d ∈ s.db .document, Document.case_id d = Document.case_id d₀ ∧
    d.storage_key = d₀.storage_key
  store : s.ext.store = store

/-- Neither stores nor removes an object. -/
def Step.moves_objects : Step Token → Bool
  | .request _ req => req.route.uploads || req.route.deletes_account
  | .ocr _ _ _ => false

/-- A document is still there after a permitted statement. -/
theorem document_kept {s : Step Token} (hs : s.moves_objects = false) {db : Database}
    {w : Write Row Patch Uuid} (hw : s.permits srv (.write w)) {d : Document}
    (hd : d ∈ db .document) : ∃ d' ∈ schema.effect (schema.resolve db w) db .document,
      Document.case_id d' = d.case_id ∧ d'.storage_key = d.storage_key := by
  cases w with
  | insert t row =>
    refine ⟨d, ?_, rfl, rfl⟩
    by_cases ht : t = .document
    · subst ht
      exact Schema.mem_effect_insert.mpr (.inl hd)
    · rwa [Schema.resolve, Schema.effect_insert_ne _ _ ht]
  | update t id p =>
    by_cases ht : t = .document
    · subst ht
      refine ⟨_, Schema.mem_effect_update.mpr ⟨d, hd, rfl⟩, ?_⟩
      unfold Schema.patched
      split
      · cases p
        exact ⟨rfl, rfl⟩
      · exact ⟨rfl, rfl⟩
    · exact ⟨d, by rwa [Schema.resolve, Schema.effect_update_ne _ _ _ ht], rfl, rfl⟩
  | delete t id =>
    have hrigid : schema.Rigid .document := rigid (by decide)
    refine ⟨d, Schema.mem_effect_remove.mpr ⟨d, hd, fun hgone => ?_, hrigid _ d⟩, rfl, rfl⟩
    cases s with
    | ocr env document_id engine => exact hw.elim
    | request env req =>
      rcases doomed_document hgone with rfl | rfl | ⟨rfl, _⟩
      · exact hw.elim
      · exact hw.elim
      · have hdel : req.route.deletes_account = true := hw
        simp [Step.moves_objects, hdel] at hs

theorem Unmoved.step {s : Step Token} (hs : s.moves_objects = false) {db : Database}
    {store : Store} {o : Op Row Patch Uuid Ext} {st : Session} (ho : s.permits srv o)
    (hst : Unmoved db store st) : Unmoved db store (perform schema run_ext o st).2 := by
  constructor
  · intro d hd
    rcases perform_db schema run_ext o st with heq | ⟨w, rfl, _, heq⟩
    · rw [heq] at hd
      exact hst.documents d hd
    · rw [heq] at hd
      rcases Schema.mem_effect_resolve (rigid (by decide)) hd with hold | rfl |
        ⟨id, p, r₀, hr₀, rfl, _, rfl⟩
      · exact hst.documents d hold
      · cases s with
        | ocr env document_id engine => exact ho.elim
        | request env req =>
          have hup : req.route.uploads = true := ho.2.1
          simp [Step.moves_objects, hup] at hs
      · -- a document is updated in its status alone
        obtain ⟨d₀, hd₀, hcase, hkey, hhash⟩ := hst.documents r₀ hr₀
        cases p
        exact ⟨d₀, hd₀, hcase, hkey, hhash⟩
  · intro d₀ hd₀
    obtain ⟨d, hd, hcase, hkey⟩ := hst.kept d₀ hd₀
    rcases perform_db schema run_ext o st with heq | ⟨w, rfl, _, heq⟩
    · exact ⟨d, heq ▸ hd, hcase, hkey⟩
    · obtain ⟨d', hd', hcase', hkey'⟩ := document_kept hs ho hd
      exact ⟨d', heq ▸ hd', hcase'.trans hcase, hkey'.trans hkey⟩
  · rcases perform_ext_state schema run_ext o st with heq | ⟨e, rfl, heq⟩
    · rw [heq]
      exact hst.store
    · rw [heq]
      cases e with
      | get key => exact hst.store
      | sign p => exact hst.store
      | put key data =>
        cases s with
        | ocr env document_id engine => exact ho.elim
        | request env req =>
          have hup : req.route.uploads = true := ho.1
          simp [Step.moves_objects, hup] at hs
      | remove key =>
        cases s with
        | ocr env document_id engine => exact ho.elim
        | request env req =>
          have hdel : req.route.deletes_account = true := ho
          simp [Step.moves_objects, hdel] at hs

theorem Unmoved.backed {w : Committed} (hw : AllBacked srv w) {s : Session}
    (h : Unmoved w.db w.ext.store s) : AllBacked srv ⟨s.db, s.ext⟩ := by
  intro d hd
  obtain ⟨d₀, hd₀, _, hkey, hhash⟩ := h.documents d hd
  unfold Backed
  rw [hkey, hhash]
  dsimp only
  rw [h.store]
  exact hw d₀ hd₀

theorem unmoved_begin (w : Committed) (env : Env) : Unmoved w.db w.ext.store (w.begin env) :=
  ⟨fun d hd => ⟨d, hd, rfl, rfl, rfl⟩, fun d hd => ⟨d, hd, rfl, rfl⟩, rfl⟩

/-- What a step that leaves the objects alone ends in, committed or not. -/
theorem Step.run_unmoved (srv : Server Token) {s : Step Token} (hs : s.moves_objects = false)
    (w : Committed) :
    ∃ faults, Unmoved w.db w.ext.store ⟨(s.run srv w).db, (s.run srv w).ext, faults⟩ := by
  let P : Committed → Prop := fun w' => ∃ faults, Unmoved w.db w.ext.store ⟨w'.db, w'.ext, faults⟩
  have hP : P (s.run srv w) := by
    refine Step.run_confined (fun o st ho hst => Unmoved.step hs ho hst) (unmoved_begin w s.env)
      (fun st hst => ⟨st.faults, hst⟩) (fun st hst => ⟨st.faults, ?_⟩)
    exact ⟨(unmoved_begin w s.env).documents, (unmoved_begin w s.env).kept, hst.store⟩
  exact hP

theorem AllBacked.step_unmoved {s : Step Token} (hs : s.moves_objects = false) {w : Committed}
    (hw : AllBacked srv w) : AllBacked srv (s.run srv w) := by
  obtain ⟨faults, hun⟩ := s.run_unmoved srv hs w
  exact hun.backed hw

/-! ### Uploads -/

/-- Bytes stored under a key no document refers to hurt none. -/
theorem AllBacked.written {w : Committed} (hw : AllBacked srv w) (hcan : AllCanonical w.db)
    {o : Outside} {case_id : Uuid} {digest : String} {data : Option Bytes}
    (ho : o.store = w.ext.store)
    (hnew : ∀ d ∈ w.db .document, Document.case_id d = case_id → d.content_hash ≠ digest) :
    ∀ d ∈ w.db .document,
      Backed srv (o.written (storage_key case_id.str digest) data).store d := by
  intro d hd
  have hne : Document.storage_key d ≠ storage_key case_id.str digest := by
    intro hkey
    have hown : Document.storage_key d = storage_key d.case_id.str d.content_hash := hcan d hd
    obtain ⟨hcase, hhash⟩ := storage_key_inj (hown.symm.trans hkey)
    exact hnew d hd hcase hhash
  unfold Backed
  rw [Outside.written_ne _ _ hne, ho]
  exact hw d hd

theorem AllBacked.step_upload {env : Env} {credentials : Option Token} {case_id : Uuid}
    {upload : Upload} {w : Committed} (hw : AllBacked srv w) (hcan : AllCanonical w.db) :
    AllBacked srv (serve srv env ⟨credentials, .upload_document case_id upload⟩ w).2 := by
  refine @serve_wps Token srv env ⟨credentials, .upload_document case_id upload⟩ w
    (fun _ w' => AllBacked srv w') ?_
  refine wps_upload_document (fun e => hw) (fun auth e s' hstores _ hext => ?_)
    fun auth source extraction s' hstores _ hworks hdb hext => ⟨fun _ d hd => ?_, fun _ => ?_⟩
  · -- refused after the store call: an object no row refers to
    intro d hd
    dsimp only
    rw [hext]
    exact hw.written hcan (o := (w.begin env).ext) rfl hstores.unrecorded d hd
  · dsimp only at hd ⊢
    rw [hdb, with_upload_document] at hd
    rw [hext]
    rcases List.mem_append.mp hd with hold | hnew
    · exact hw.written hcan (o := (w.begin env).ext) rfl hstores.unrecorded d hold
    · rw [List.mem_singleton.mp hnew]
      exact ⟨upload.data, Outside.written_self hworks _ _, rfl⟩
  · intro d hd
    dsimp only
    rw [hext]
    exact hw.written hcan (o := (w.begin env).ext) rfl hstores.unrecorded d hd

/-! ### Deletions -/

theorem document_of_congr {db : Database} {id : Uuid} {d d' : Document}
    (h : d.case_id = d'.case_id) : document_of db id d = document_of db id d' := by
  unfold document_of
  rw [h]

/-- The objects that are asked to go are those of documents that go. -/
theorem key_not_purged {db : Database} (hcan : AllCanonical db) {id : Uuid} {d : Document}
    (hd : d ∈ db .document) (hof : document_of db id d = false) :
    d.storage_key ∉ account_keys db id := by
  intro hmem
  obtain ⟨d', hd', hkey⟩ := List.mem_map.mp hmem
  obtain ⟨hd', hof'⟩ := List.mem_filter.mp hd'
  have hcase := (case_of_shared_key (hcan d' hd') (hcan d hd) hkey).1
  rw [document_of_congr hcase, hof] at hof'
  cases hof'

theorem AllBacked.step_delete {env : Env} {credentials : Option Token} {password : String}
    {mfa_code : Option String} {acknowledge : Bool} {w : Committed} (hw : AllBacked srv w)
    (hcan : AllCanonical w.db)
    (hsafe : ∀ auth db', MayDelete srv env credentials password mfa_code acknowledge w.db auth db' →
      env.commits = true ∨ account_keys w.db auth.account.id = []) :
    AllBacked srv (serve srv env
      ⟨credentials, .delete_own_account password mfa_code acknowledge⟩ w).2 := by
  refine @serve_wps Token srv env ⟨credentials, .delete_own_account password mfa_code acknowledge⟩
    w (fun _ w' => AllBacked srv w') ?_
  refine wps_delete_own_account (fun e s' hext => ?_)
    fun auth db reply s' hmay hdb hext => ⟨fun _ d hd => ?_, fun hlost => ?_⟩
  · intro d hd
    dsimp only
    rw [hext]
    exact hw d hd
  · -- committed: what stays is in nobody's deleted case
    obtain ⟨hin, hof⟩ := hmay.document_of_stay (hdb ▸ hd)
    unfold Backed
    dsimp only
    rw [hext, Committed.begin_db, purge_store_of_not_mem (key_not_purged hcan hin hof)]
    exact hw d hin
  · -- the COMMIT has failed: the account had no documents
    have hnone : account_keys w.db auth.account.id = [] := by
      rcases hsafe auth db hmay with hcommits | hnone
      · rw [hcommits] at hlost
        cases hlost
      · exact hnone
    intro d hd
    dsimp only
    rw [hext, Committed.begin_db, hnone]
    exact hw d hd

/-! ### Runs -/

/-- A deletion that passes its checks, of an account with documents, whose
    COMMIT fails. -/
def LosesBytes (srv : Server Token) (h : History Token) : Step Token → Prop
  | .request env ⟨credentials, .delete_own_account password mfa_code acknowledge⟩ =>
      env.commits = false ∧ ∃ auth db',
        MayDelete srv env credentials password mfa_code acknowledge h.world.db auth db' ∧
          account_keys h.world.db auth.account.id ≠ []
  | _ => False

/-- **Step.** One case for each way a step can touch the objects. -/
theorem AllBacked.step {h : History Token} {s : Step Token} (hs : ¬ LosesBytes srv h s)
    (hcan : AllCanonical h.world.db) (hw : AllBacked srv h.world) :
    AllBacked srv (h.next srv s).world := by
  by_cases hmoves : s.moves_objects = false
  · exact hw.step_unmoved hmoves
  cases s with
  | ocr env document_id engine => exact absurd rfl hmoves
  | request env req =>
    obtain ⟨credentials, route⟩ := req
    cases route
    case upload_document case_id upload => exact hw.step_upload hcan
    case delete_own_account password mfa_code acknowledge =>
      refine hw.step_delete hcan fun auth db' hmay => ?_
      by_contra hno
      rw [not_or] at hno
      exact hs ⟨by simpa using hno.1, auth, db', hmay, hno.2⟩
    all_goals exact absurd rfl hmoves

/-- **Run.** Where requests are served one after another and no deletion loses its COMMIT,
    every document of every state reached has its bytes. -/
theorem documents_stay_backed {h : History Token}
    (hr : Reaches srv (fun h s => ¬ LosesBytes srv h s) History.start h) :
    ∀ d ∈ h.world.db .document, Backed srv h.world.ext.store d := by
  induction hr with
  | refl =>
    intro d hd
    cases hd
  | step s hr hs ih => exact AllBacked.step hs hr.canonical ih

/-! ### A COMMIT that fails -/

/-- The access token of the first account's first session. -/
def Sample.bearer (now : Nat) : Option Payload := some (access_claims 4096#128 8192#128 now)

/-- One page of text. -/
def one_page : Upload := ⟨pdf_magic ++ Sample.bytes_of "hello", none, none, "upload", none⟩

/-- An account opens a case and uploads a document. -/
def filed : History Payload :=
  (((History.start.next Sample.server
    (.request (Sample.env 1 (100 * second)) ⟨none, .register "a@x.org" "correct horse" none⟩)).next
    Sample.server (.request (Sample.env 2 (101 * second))
      ⟨none, .login "a@x.org" "correct horse"⟩)).next
    Sample.server (.request (Sample.env 3 (102 * second))
      ⟨Sample.bearer (101 * second), .create_case "In re A" none none⟩)).next
    Sample.server (.request (Sample.env 4 (103 * second))
      ⟨Sample.bearer (101 * second), .upload_document 12288#128 one_page⟩)

theorem reaches_filed : Reaches Sample.server
    (fun h s => Honest Sample.server h s ∧ ¬ LosesBytes Sample.server h s) History.start filed := by
  refine .step _ (.step _ (.step _ (.step _ .refl ⟨?_, id⟩) ⟨?_, id⟩) ⟨?_, id⟩) ⟨?_, id⟩
  all_goals exact Sample.honest_of_check (by decide) rfl rfl (by decide +kernel)

/-- The document of that run. -/
def filed_document : Document :=
  uploaded_document Sample.server (Sample.env 4 (103 * second)) 12288#128 one_page .upload
    ⟨[⟨1, "hello"⟩]⟩

/-- The document filed has its bytes. -/
theorem filed_document_backed :
    filed_document ∈ filed.world.db .document ∧
      Backed Sample.server filed.world.ext.store filed_document :=
  have hmem : filed_document ∈ filed.world.db .document := by decide +kernel
  ⟨hmem, documents_stay_backed (reaches_filed.mono fun _ _ hs => hs.2) _ hmem⟩

/-- The account is deleted, and the COMMIT fails. -/
def half_deleted : History Payload :=
  filed.next Sample.server (.request { Sample.env 5 (104 * second) with commits := false }
    ⟨Sample.bearer (101 * second), .delete_own_account "correct horse" none true⟩)

/-- The document is still there, and its bytes are not. -/
theorem half_deleted_document_not_backed :
    Reaches Sample.server (Honest Sample.server) History.start half_deleted ∧
      filed_document ∈ half_deleted.world.db .document ∧
      ¬ Backed Sample.server half_deleted.world.ext.store filed_document := by
  refine ⟨.step _ (reaches_filed.mono fun _ _ hs => hs.1)
    (Sample.honest_of_check (by decide) rfl rfl (by decide +kernel)), by decide +kernel, ?_⟩
  intro hbacked
  obtain ⟨data, hdata, _⟩ := hbacked
  have hgone : half_deleted.world.ext.store filed_document.storage_key = none := by
    decide +kernel
  rw [hgone] at hdata
  cases hdata

end CounselReady
