import CounselReady.Guarantees.DocumentBytes

/-! # Bytes an Account Leaves Behind

    A deletion asks the objects recorded on the account's documents to go. An
    upload stores its bytes before it reads them, so one that is refused for
    what is in the file, or that fails later, leaves an object no document
    records.

    * `deletion_clears_iff`: after a deletion nothing is left under the prefix of
      a case exactly when every object there was recorded.
    * `deletion_clears_case`: it was, in every run whose uploads to the case go
      through once they have reached the store.
-/

namespace CounselReady

open Relational Framework

variable {Token : Type} {srv : Server Token}

/-! ### Recorded objects -/

/-- Every object under the prefix of the case is recorded on one of its documents. -/
def Recorded (case_id : Uuid) (w : Committed) : Prop :=
  ∀ key, case_id.owns_key key → w.ext.store key ≠ none →
    ∃ d ∈ w.db .document, Document.case_id d = case_id ∧ d.storage_key = key

/-- Nothing is stored under the prefix of the case. -/
def Cleared (case_id : Uuid) (store : Store) : Prop :=
  ∀ key, case_id.owns_key key → store key = none

/-- One credential, one account. -/
theorem SignedIn.account_id_unique {env : Env} {credentials : Option Token} {db : Database}
    {auth auth' : Authenticated} (h : SignedIn srv env credentials db auth)
    (h' : SignedIn srv env credentials db auth') : auth.account.id = auth'.account.id := by
  obtain ⟨token, htoken, claims, hclaims, huser, _⟩ := h.token
  obtain ⟨token', htoken', claims', hclaims', huser', _⟩ := h'.token
  rw [htoken] at htoken'
  cases htoken'
  rw [hclaims] at hclaims'
  cases hclaims'
  rw [← huser, huser']

/-- A document's key lies under the prefix of its own case. -/
theorem owner_of_key {d : Document} (hcan : CanonicalKey d) {case_id : Uuid}
    (hkey : case_id.owns_key d.storage_key) : d.case_id = case_id := by
  unfold CanonicalKey at hcan
  rw [hcan] at hkey
  exact Uuid.owns_key_unique (owns_storage_key _ _) hkey

/-- What a deletion that is answered with its counts has done to the objects. -/
theorem serve_delete_store {env : Env} {credentials : Option Token} {password : String}
    {mfa_code : Option String} {acknowledge : Bool} {w : Committed} {auth : Authenticated}
    (hauth : SignedIn srv env credentials w.db auth)
    (hok : ¬ (serve srv env
      ⟨credentials, .delete_own_account password mfa_code acknowledge⟩ w).1.refuses) :
    (serve srv env ⟨credentials, .delete_own_account password mfa_code acknowledge⟩ w).2.ext =
      purge (account_keys w.db auth.account.id) (w.begin env).ext := by
  let P : Response Token → Committed → Prop := fun resp w' =>
    ¬ resp.refuses → w'.ext = purge (account_keys w.db auth.account.id) (w.begin env).ext
  have hP : P (serve srv env
        ⟨credentials, .delete_own_account password mfa_code acknowledge⟩ w).1
      (serve srv env ⟨credentials, .delete_own_account password mfa_code acknowledge⟩ w).2 := by
    apply serve_wps
    refine wps_delete_own_account (fun e s' _ => ?_)
      fun auth' db reply s' hmay _ hext => ⟨fun _ _ => ?_, fun _ => ?_⟩
    · intro hno
      exact absurd (answer_error_refuses _ e) hno
    · dsimp only
      rw [hext, Committed.begin_db, hmay.signed_in.account_id_unique hauth]
    · intro hno
      exact absurd (answer_error_refuses _ _) hno
  exact hP hok

/-- **Deletion.** Nothing is left exactly when everything was recorded. -/
theorem deletion_clears_iff {C : History Token → Step Token → Prop} {h : History Token}
    (hr : Reaches srv C History.start h) {env : Env} {credentials : Option Token}
    {password : String} {mfa_code : Option String} {acknowledge : Bool} {auth : Authenticated}
    {c : Case} (hc : c ∈ h.world.db .case_) (hauth : SignedIn srv env credentials h.world.db auth)
    (howner : c.owner_id = auth.account.id)
    (hstore : ∀ outcome ∈ env.store_outcomes, outcome = .works)
    (hok : ¬ (serve srv env
      ⟨credentials, .delete_own_account password mfa_code acknowledge⟩ h.world).1.refuses) :
    Cleared c.id (serve srv env
        ⟨credentials, .delete_own_account password mfa_code acknowledge⟩ h.world).2.ext.store ↔
      Recorded c.id h.world := by
  have hext := serve_delete_store hauth hok
  have hout : ∀ outcome ∈ (h.world.begin env).ext.outcomes, outcome = .works := hstore
  constructor
  · intro hcleared key hkey hsome
    have hnone := hcleared key hkey
    rw [hext] at hnone
    have hmem : key ∈ account_keys h.world.db auth.account.id := by
      by_contra hno
      rw [purge_store_of_not_mem hno] at hnone
      exact hsome hnone
    obtain ⟨d, hd, hdkey⟩ := List.mem_map.mp hmem
    have hd' := (List.mem_filter.mp hd).1
    exact ⟨d, hd', owner_of_key (hr.canonical d hd') (hdkey ▸ hkey), hdkey⟩
  · intro hrec key hkey
    rw [hext]
    by_cases hmem : key ∈ account_keys h.world.db auth.account.id
    · exact purge_store_of_mem hout hmem
    · rw [purge_store_of_not_mem hmem]
      by_contra hsome
      obtain ⟨d, hd, hcase, hdkey⟩ := hrec key hkey hsome
      refine hmem (List.mem_map.mpr ⟨d, List.mem_filter.mpr ⟨hd, ?_⟩, hdkey⟩)
      exact List.any_eq_true.mpr ⟨c, hc, by simp [hcase, howner]⟩

/-! ### Uploads that go through -/

/-- The file is a PDF that can be read, its title fits, neither title nor pages have a
    U+0000, and no statement, no store call and no COMMIT of the request fails. -/
structure GoesThrough (srv : Server Token) (env : Env) (upload : Upload) : Prop where
  readable : ∃ extraction, extract_text_layer srv upload.data default_max_pages
    default_max_chars_per_page = .ok extraction ∧ ∀ p ∈ extraction.pages, storable p.text = true
  title : (or_else upload.title (or_else upload.filename "Untitled document")).length ≤ 300
  text : storable (or_else upload.title (or_else upload.filename "Untitled document")) = true
  statements : true ∉ env.faults
  store : (env.store_outcomes.head?.getD .works) = .works
  commits : env.commits = true

/-- The call leaves something under the key it was to fill. -/
def StoreOutcome.leaves : StoreOutcome → Bool
  | .works => true
  | .fails => false
  | .fails_leaving data => data.isSome

/-- An upload to the case that leaves bytes in the store and does not go through. -/
def LeavesBytes (srv : Server Token) (case_id : Uuid) (h : History Token) : Step Token → Prop
  | .request env ⟨credentials, .upload_document id upload⟩ =>
      id = case_id ∧ (∃ auth, StoresUpload srv env credentials id upload h.world.db auth) ∧
        (env.store_outcomes.head?.getD .works).leaves = true ∧ ¬ GoesThrough srv env upload
  | _ => False

/-- Nothing spoils an upload that goes through. -/
theorem GoesThrough.not_spoiled {h : History Token} {env : Env} {credentials : Option Token}
    {case_id : Uuid} {upload : Upload} {auth : Authenticated} (hgo : GoesThrough srv env upload)
    (hsha : Sha256 srv) (hc : schema.Consistent h.world.db) (hf : Fresh srv h env)
    (hstores : StoresUpload srv env credentials case_id upload h.world.db auth) :
    ¬ Spoiled srv env auth.account case_id upload (h.world.begin env) := by
  intro hspoiled
  cases hspoiled with
  | store hfails => exact hfails hgo.store
  | unreadable e herr =>
    obtain ⟨extraction, hread, _⟩ := hgo.readable
    rw [herr] at hread
    cases hread
  | fault hmem => exact hgo.statements hmem
  | refused source extraction hread db w v hst hchk =>
    obtain ⟨extraction', hread', htexts⟩ := hgo.readable
    obtain rfl := Except.ok.inj (hread.symm.trans hread')
    have hadmitted := upload_statement_admitted hsha hc
      (fun t r hr i => hf.ids _ h.world_mem_worlds t r hr i) hf.distinct hstores hgo.title hgo.text
      hread htexts hst
    rw [hadmitted] at hchk
    cases hchk

/-! ### One step -/

/-- The case has been there, and is there no longer. -/
structure Gone (case_id : Uuid) (h : History Token) : Prop where
  seen : ∃ w ∈ h.worlds, ∃ c ∈ w.db .case_, Case.id c = case_id
  absent : ∀ c ∈ h.world.db .case_, Case.id c ≠ case_id

/-- A case that is gone does not come back. -/
theorem Gone.step {case_id : Uuid} {h : History Token} {s : Step Token}
    (hon : Honest srv h s) (hg : Gone case_id h) : Gone case_id (h.next srv s) := by
  obtain ⟨w, hw, c, hc, hid⟩ := hg.seen
  refine ⟨⟨w, List.mem_cons_of_mem _ hw, c, hc, hid⟩, ?_⟩
  let J : Database → Prop := fun db => ∀ c ∈ db .case_, Case.id c ≠ case_id
  have hJ : J (h.next srv s).world.db := by
    refine Step.run_db_invariant ?_ hg.absent
    intro wr db hp _ hdb c' hc'
    rcases Schema.mem_effect_resolve (rigid (by decide)) hc' with hold | rfl |
      ⟨_, p, _, _, _, _, _⟩
    · exact hdb c' hold
    · cases s with
      | ocr env document_id engine => exact hp.elim
      | request env req =>
        obtain ⟨⟨i, hi⟩, _⟩ := hp
        intro heq
        exact hon.1.ids w hw .case_ c hc i (hid.trans (heq.symm.trans hi))
    · exact p.elim
  exact hJ

theorem Recorded.step_unmoved {case_id : Uuid} {s : Step Token} (hs : s.moves_objects = false)
    {w : Committed} (hw : Recorded case_id w) : Recorded case_id (s.run srv w) := by
  obtain ⟨faults, hun⟩ := s.run_unmoved srv hs w
  intro key hkey hsome
  rw [show (s.run srv w).ext.store = w.ext.store from hun.store] at hsome
  obtain ⟨d₀, hd₀, hcase₀, hkey₀⟩ := hw key hkey hsome
  obtain ⟨d, hd, hcase, hdkey⟩ := hun.kept d₀ hd₀
  exact ⟨d, hd, hcase.trans hcase₀, hdkey.trans hkey₀⟩

/-- An object stored for another case is not under this one's prefix. -/
theorem Recorded.written {case_id id : Uuid} {w : Committed} (hw : Recorded case_id w)
    {db : Database} (hdb : ∀ d ∈ w.db .document, d ∈ db .document) {o : Outside} {digest : String}
    {data : Option Bytes} (ho : o.store = w.ext.store) (hne : id ≠ case_id) :
    Recorded case_id ⟨db, o.written (storage_key id.str digest) data⟩ := by
  intro key hkey hsome
  have hother : key ≠ storage_key id.str digest := by
    rintro rfl
    exact hne (Uuid.owns_key_unique (owns_storage_key id digest) hkey)
  dsimp only at hsome
  rw [Outside.written_ne _ _ hother, ho] at hsome
  obtain ⟨d, hd, hrest⟩ := hw key hkey hsome
  exact ⟨d, hdb d hd, hrest⟩

/-- Where the call leaves nothing, nothing has been added. -/
theorem Recorded.not_left {case_id : Uuid} {w : Committed} (hw : Recorded case_id w) {o : Outside}
    {key : String} {data : Option Bytes} (ho : o.store = w.ext.store)
    (hleaves : o.outcome.leaves = false) : Recorded case_id ⟨w.db, o.written key data⟩ := by
  intro k hkey hsome
  refine hw k hkey ?_
  rw [← ho]
  dsimp only [Outside.written] at hsome
  cases hout : o.outcome with
  | works =>
    rw [hout] at hleaves
    cases hleaves
  | fails =>
    rw [hout] at hsome
    exact hsome
  | fails_leaving left =>
    rw [hout] at hleaves hsome
    have hnone : left = none := by simpa [StoreOutcome.leaves] using hleaves
    subst hnone
    by_cases hk : k = key
    · subst hk
      simp at hsome
    · simpa [hk] using hsome

theorem Recorded.step_upload {case_id : Uuid} {h : History Token} {env : Env}
    {credentials : Option Token} {id : Uuid} {upload : Upload} (hsha : Sha256 srv)
    (hc : schema.Consistent h.world.db) (hf : Fresh srv h env)
    (hkeeps : ¬ LeavesBytes srv case_id h
      (.request env ⟨credentials, .upload_document id upload⟩))
    (hw : Recorded case_id h.world) :
    Recorded case_id (serve srv env ⟨credentials, .upload_document id upload⟩ h.world).2 := by
  refine @serve_wps Token srv env ⟨credentials, .upload_document id upload⟩ h.world
    (fun _ w' => Recorded case_id w') ?_
  -- an upload to the case that reaches the store goes through
  have hgo : ∀ auth, StoresUpload srv env credentials id upload h.world.db auth →
      (h.world.begin env).ext.outcome.leaves = true → id = case_id →
      GoesThrough srv env upload := by
    intro auth hstores hleaves hid
    by_contra hno
    exact hkeeps ⟨hid, ⟨auth, hstores⟩, hleaves, hno⟩
  refine wps_upload_document (fun e => hw) (fun auth e s' hstores hspoiled hext => ?_)
    fun auth source extraction s' hstores _ hworks hdb hext => ⟨fun _ => ?_, fun hlost => ?_⟩
  · change Recorded case_id ⟨h.world.db, s'.ext⟩
    rw [hext]
    by_cases hid : id = case_id
    · cases hleaves : (h.world.begin env).ext.outcome.leaves with
      | true => exact absurd hspoiled ((hgo auth hstores hleaves hid).not_spoiled hsha hc hf hstores)
      | false => exact hw.not_left rfl hleaves
    · exact hw.written (fun _ hd => hd) rfl hid
  · dsimp only
    rw [hdb, hext]
    by_cases hid : id = case_id
    · subst hid
      intro key hkey hsome
      dsimp only at hsome ⊢
      rw [with_upload_document]
      by_cases hnew : key = upload_key srv id upload
      · exact ⟨_, List.mem_append_right _ (List.mem_singleton_self _), rfl, hnew.symm⟩
      · rw [Outside.written_ne _ _ hnew] at hsome
        obtain ⟨d, hd, hrest⟩ := hw key hkey hsome
        exact ⟨d, List.mem_append_left _ hd, hrest⟩
    · refine hw.written (fun d hd => ?_) rfl hid
      rw [with_upload_document]
      exact List.mem_append_left _ hd
  · by_cases hid : id = case_id
    · have hleaves : (h.world.begin env).ext.outcome.leaves = true := by rw [hworks]; rfl
      rw [(hgo auth hstores hleaves hid).commits] at hlost
      cases hlost
    · dsimp only
      rw [hext]
      exact hw.written (fun _ hd => hd) rfl hid

/-- A deletion takes the case away, or leaves its objects and documents alone, or
    loses its COMMIT. -/
theorem Recorded.step_delete {case_id : Uuid} {h : History Token} {env : Env}
    {credentials : Option Token} {password : String} {mfa_code : Option String}
    {acknowledge : Bool} (hc : schema.Consistent h.world.db) (hcan : AllCanonical h.world.db)
    (hw : Recorded case_id h.world) :
    Recorded case_id (serve srv env
        ⟨credentials, .delete_own_account password mfa_code acknowledge⟩ h.world).2 ∨
      Gone case_id (h.next srv (.request env
        ⟨credentials, .delete_own_account password mfa_code acknowledge⟩)) := by
  let P : Response Token → Committed → Prop := fun _ w' => Recorded case_id w' ∨
    ((∃ c ∈ h.world.db .case_, Case.id c = case_id) ∧ ∀ c ∈ w'.db .case_, Case.id c ≠ case_id)
  have hP : P (serve srv env
        ⟨credentials, .delete_own_account password mfa_code acknowledge⟩ h.world).1
      (serve srv env
        ⟨credentials, .delete_own_account password mfa_code acknowledge⟩ h.world).2 := by
    apply serve_wps
    refine wps_delete_own_account (fun e s' hext => .inl ?_)
      fun auth db reply s' hmay hdb hext => ⟨fun _ => ?_, fun _ => .inl ?_⟩
    · intro key hkey hsome
      dsimp only at hsome
      rw [hext] at hsome
      exact hw key hkey hsome
    · -- committed
      have hdocs : db .document = h.world.db .document :=
        hmay.reauthenticated.other (by decide) (by decide)
      have hcases : db .case_ = h.world.db .case_ :=
        hmay.reauthenticated.other (by decide) (by decide)
      by_cases howned : ∃ c ∈ h.world.db .case_, Case.id c = case_id ∧
          c.owner_id = auth.account.id
      · -- the case is this account's, and goes with it
        obtain ⟨c, hcmem, hid, howner⟩ := howned
        refine .inr ⟨⟨c, hcmem, hid⟩, fun c' hc' hid' => ?_⟩
        dsimp only at hc'
        rw [hdb] at hc'
        obtain ⟨hin, hne⟩ := not_case_of_without_account hc'
        rw [hcases] at hin
        have hsame : c' = c := hc.eq_of_pk hin hcmem (hid'.trans hid.symm)
        exact hne (hsame ▸ howner)
      · -- the case is another account's, and so are its documents
        have hother : ∀ d ∈ h.world.db .document, Document.case_id d = case_id →
            document_of h.world.db auth.account.id d = false := by
          intro d _ hcase
          by_contra hof
          rw [Bool.not_eq_false] at hof
          obtain ⟨c, hcmem, hboth⟩ := List.any_eq_true.mp hof
          rw [Bool.and_eq_true, beq_iff_eq, beq_iff_eq] at hboth
          exact howned ⟨c, hcmem, hboth.1.trans hcase, hboth.2⟩
        refine .inl fun key hkey hsome => ?_
        dsimp only at hsome ⊢
        rw [hext, Committed.begin_db] at hsome
        have hkept : key ∉ account_keys h.world.db auth.account.id := by
          intro hmem
          obtain ⟨d, hd, hdkey⟩ := List.mem_map.mp hmem
          obtain ⟨hd, hof⟩ := List.mem_filter.mp hd
          rw [hother d hd (owner_of_key (hcan d hd) (hdkey ▸ hkey))] at hof
          cases hof
        rw [purge_store_of_not_mem hkept] at hsome
        obtain ⟨d, hd, hcase, hdkey⟩ := hw key hkey hsome
        refine ⟨d, ?_, hcase, hdkey⟩
        rw [hdb]
        refine document_of_without_account ?_ (hdocs ▸ hd) ?_
        · intro a ha b hb hid
          rw [hdocs] at ha hb
          exact hc.eq_of_pk ha hb hid
        · have hof := hother d hd hcase
          unfold document_of at hof ⊢
          rwa [hcases]
    · -- not committed: the documents are still there
      intro key hkey hsome
      dsimp only at hsome ⊢
      rw [hext, Committed.begin_db] at hsome
      by_cases hmem : key ∈ account_keys h.world.db auth.account.id
      · obtain ⟨d, hd, hdkey⟩ := List.mem_map.mp hmem
        have hd' := (List.mem_filter.mp hd).1
        exact ⟨d, hd', owner_of_key (hcan d hd') (hdkey ▸ hkey), hdkey⟩
      · rw [purge_store_of_not_mem hmem] at hsome
        exact hw key hkey hsome
  rcases hP with hrec | ⟨⟨c, hcmem, hid⟩, habsent⟩
  · exact .inl hrec
  · exact .inr ⟨⟨h.world, List.mem_cons_of_mem _ List.mem_cons_self, c, hcmem, hid⟩, habsent⟩

/-! ### Runs -/

/-- **Step.** The objects of the case stay recorded, or the case is gone. -/
theorem Recorded.step {case_id : Uuid} {h : History Token} {s : Step Token} (hsha : Sha256 srv)
    (hr : Reaches srv (Honest srv) History.start h) (hon : Honest srv h s)
    (hkeeps : ¬ LeavesBytes srv case_id h s) (hw : Recorded case_id h.world) :
    Recorded case_id (h.next srv s).world ∨ Gone case_id (h.next srv s) := by
  by_cases hmoves : s.moves_objects = false
  · exact .inl (hw.step_unmoved hmoves)
  cases s with
  | ocr env document_id engine => exact absurd rfl hmoves
  | request env req =>
    obtain ⟨credentials, route⟩ := req
    cases route
    case upload_document id upload =>
      exact .inl (hw.step_upload hsha hr.consistent hon.1 hkeeps)
    case delete_own_account password mfa_code acknowledge =>
      exact hw.step_delete hr.consistent hr.canonical
    all_goals exact absurd rfl hmoves

/-- **Run.** In a run whose uploads to the case go through once they have reached
    the store, every object of the case stays recorded for as long as the case is
    there. -/
theorem recorded_of_reaches {case_id : Uuid} (hsha : Sha256 srv) {h : History Token}
    (hr : Reaches srv (fun h s => Honest srv h s ∧ ¬ LeavesBytes srv case_id h s)
      History.start h) : Recorded case_id h.world ∨ Gone case_id h := by
  induction hr with
  | refl => exact .inl fun key _ hsome => absurd rfl hsome
  | step s hr hs ih =>
    rcases ih with hw | hg
    · exact hw.step hsha (hr.mono fun _ _ hs => hs.1) hs.1 hs.2
    · exact .inr (hg.step hs.1)

/-- **Deletion after a run.** Nothing is left under the prefix of a case of the
    account, when the run's uploads to that case went through once they had
    reached the store. -/
theorem deletion_clears_case (hsha : Sha256 srv) {h : History Token} {c : Case}
    (hr : Reaches srv (fun h s => Honest srv h s ∧ ¬ LeavesBytes srv c.id h s) History.start h)
    (hc : c ∈ h.world.db .case_) {env : Env} {credentials : Option Token} {auth : Authenticated}
    (hauth : SignedIn srv env credentials h.world.db auth) (howner : c.owner_id = auth.account.id)
    {password : String} {mfa_code : Option String} {acknowledge : Bool}
    (hstore : ∀ outcome ∈ env.store_outcomes, outcome = .works)
    (hok : ¬ (serve srv env
      ⟨credentials, .delete_own_account password mfa_code acknowledge⟩ h.world).1.refuses) :
    Cleared c.id (serve srv env
      ⟨credentials, .delete_own_account password mfa_code acknowledge⟩ h.world).2.ext.store := by
  refine (deletion_clears_iff hr hc hauth howner hstore hok).mpr ?_
  rcases recorded_of_reaches hsha hr with hrec | hgone
  · exact hrec
  · exact absurd rfl (hgone.absent c hc)

/-! ### An upload that is refused -/

theorem Sample.sha256_length : Sha256 Sample.server := by
  intro data
  have hlen : 64 ≤ ((Sample.text_of data).toList ++ List.replicate 64 '-').length := by simp
  change (Sample.digest data).length = 64
  simp only [Sample.digest, String.length_ofList, List.length_take]
  omega

/-- The first account, signed in. -/
def first_account : Authenticated :=
  ⟨⟨4096#128, "a@x.org", none, true, some "correct horse"⟩, 8192#128⟩

/-- Its case. -/
def first_case : Case := ⟨12288#128, 102 * second, 4096#128, "In re A", .florida, none, none⟩

/-- The request that deletes it. -/
def goodbye : Request Payload :=
  ⟨Sample.bearer (101 * second), .delete_own_account "correct horse" none true⟩

/-- A file that is not a PDF. -/
def not_a_pdf : Upload := ⟨Sample.bytes_of "hello", none, none, "upload", none⟩

/-- An account opens a case and uploads a file that is refused. -/
def refused : History Payload :=
  (((History.start.next Sample.server
    (.request (Sample.env 1 (100 * second)) ⟨none, .register "a@x.org" "correct horse" none⟩)).next
    Sample.server (.request (Sample.env 2 (101 * second))
      ⟨none, .login "a@x.org" "correct horse"⟩)).next
    Sample.server (.request (Sample.env 3 (102 * second))
      ⟨Sample.bearer (101 * second), .create_case "In re A" none none⟩)).next
    Sample.server (.request (Sample.env 4 (103 * second))
      ⟨Sample.bearer (101 * second), .upload_document 12288#128 not_a_pdf⟩)

/-- The account is deleted, every removal works, and the bytes are still there. -/
theorem refused_bytes_left_behind :
    Reaches Sample.server (Honest Sample.server) History.start refused ∧
      first_case ∈ refused.world.db .case_ ∧ first_case.owner_id = first_account.account.id ∧
      (serve Sample.server (Sample.env 5 (104 * second)) goodbye refused.world).1 =
        .success 200 (.deletion 1 0 0) ∧
      ¬ Cleared first_case.id
        (serve Sample.server (Sample.env 5 (104 * second)) goodbye refused.world).2.ext.store := by
  refine ⟨.step _ (.step _ (.step _ (.step _ .refl ?_) ?_) ?_) ?_, by decide +kernel, rfl,
    by decide +kernel, ?_⟩
  iterate 4 exact Sample.honest_of_check (by decide) rfl rfl (by decide +kernel)
  intro hcleared
  have hnone := hcleared (upload_key Sample.server 12288#128 not_a_pdf) (owns_storage_key _ _)
  have hsome : ((serve Sample.server (Sample.env 5 (104 * second)) goodbye refused.world).2.ext.store
      (upload_key Sample.server 12288#128 not_a_pdf)).isSome = true := by
    decide +kernel
  rw [hnone] at hsome
  cases hsome

/-- The uploads of the run that filed a document go through. -/
theorem reaches_filed_recorded : Reaches Sample.server (fun h s => Honest Sample.server h s ∧
    ¬ LeavesBytes Sample.server first_case.id h s) History.start filed := by
  refine .step _ (.step _ (.step _ (.step _ .refl ⟨?_, id⟩) ⟨?_, id⟩) ⟨?_, id⟩) ⟨?_, ?_⟩
  iterate 4 exact Sample.honest_of_check (by decide) rfl rfl (by decide +kernel)
  intro hleaves
  refine hleaves.2.2.2 ⟨⟨⟨[⟨1, "hello"⟩]⟩, by decide +kernel, by decide⟩, by decide +kernel,
    by decide +kernel, ?_, rfl, rfl⟩
  intro hmem
  cases hmem

theorem first_account_signed_in : SignedIn Sample.server (Sample.env 5 (104 * second))
    (Sample.bearer (101 * second)) filed.world.db first_account where
  token := ⟨access_claims 4096#128 8192#128 (101 * second), rfl,
    ⟨4096#128, 8192#128, 1001 * second⟩, by decide +kernel, rfl, rfl⟩
  session := ⟨⟨8192#128, 4096#128, hash_refresh_token Sample.server "2",
    refresh_expiry (101 * second), none, some (101 * second)⟩, by decide +kernel, rfl,
    by decide +kernel⟩
  account := by decide +kernel
  active := rfl

/-- Of the case with the filed document nothing is left. -/
theorem filed_case_cleared :
    Cleared first_case.id (serve Sample.server (Sample.env 5 (104 * second))
      ⟨Sample.bearer (101 * second), .delete_own_account "correct horse" none true⟩
      filed.world).2.ext.store := by
  have hok : (serve Sample.server (Sample.env 5 (104 * second))
      ⟨Sample.bearer (101 * second), .delete_own_account "correct horse" none true⟩
      filed.world).1 = .success 200 (.deletion 1 1 1) := by
    decide +kernel
  refine deletion_clears_case Sample.sha256_length reaches_filed_recorded (by decide +kernel)
    first_account_signed_in rfl ?_ ?_
  · intro outcome hmem
    cases hmem
  · rw [hok]
    exact id

end CounselReady
