import CounselReady.Guarantees.ErasedBytes
import CounselReady.Specs.Admission

/-! # The Upload Cap

    A file is to be refused as too large exactly when it has more bytes than the
    cap, and as empty exactly when it has none. The declared length is that of
    the whole body, and it is held against the same cap.
-/

namespace CounselReady

open Relational Framework Handler Prog

variable {Token : Type} {srv : Server Token} {env : Env} {s : Session}

/-! ### The other answers -/

def too_large : HttpError := ⟨413, .text "That file is larger than the upload limit.", []⟩

def empty_file : HttpError := ⟨422, .text "The file is empty.", []⟩

/-- Neither of the two refusals of a file's size. -/
def OtherError (e : Exc) : Prop := e ≠ .http too_large ∧ e ≠ .http empty_file

theorem extract_pages_raises {reader : PdfReader} {max_chars : Nat} {indices : List Nat} {e : Exc}
    (h : extract_pages reader max_chars indices = .error e) :
    ∃ damage : PdfError, e = damage.escaped := by
  induction indices with
  | nil => cases h
  | cons index indices ih =>
    unfold extract_pages at h
    split at h
    · next exc hpage =>
      cases h
      unfold extract_page at hpage
      dsimp only at hpage
      split at hpage <;> cases hpage
      exact ⟨_, rfl⟩
    · split at h
      · next exc hrest =>
        cases h
        exact ih hrest
      · cases h

theorem other_escaped (damage : PdfError) : OtherError (ingest_answer damage.escaped) := by
  cases damage <;> exact ⟨by decide, by decide⟩

theorem other_locked {reader : PdfReader} {e : Exc} (h : unlock reader = .error e) :
    OtherError (ingest_answer e) := by
  unfold unlock at h
  repeat' split at h
  all_goals cases h
  all_goals first
    | exact ⟨by decide, by decide⟩
    | exact other_escaped _

/-- What is wrong with a PDF is not its size. -/
theorem other_unreadable {data : Bytes} {max_pages max_chars : Nat} {e : Exc}
    (h : extract_text_layer srv data max_pages max_chars = .error e) :
    OtherError (ingest_answer e) := by
  unfold extract_text_layer at h
  repeat' split at h
  all_goals cases h
  all_goals first
    | exact ⟨by decide, by decide⟩
    | exact other_escaped _
    | exact other_locked (by assumption)
    | skip
  next hraised =>
    obtain ⟨damage, rfl⟩ := extract_pages_raises hraised
    exact other_escaped damage

/-- The rows of a document fail in the database or not at all. -/
theorem wps_record_document_raises {document : Document} {extraction : ExtractionResult}
    {Q : Except Exc Unit → Session → Prop} (hdb : ∀ v s', Q (.error (.database v)) s')
    (hok : ∀ s', Q (.ok ()) s') : wps (record_document env document extraction) Q s := by
  refine wps_execute_bind (fun v => hdb v _) fun _ => wps_bind ?_
  unfold queue_ocr
  by_cases hneeds : extraction.needs_ocr = true
  · rw [if_pos hneeds]
    refine wps_bind (wps_execute_bind (fun v => hdb v _) fun _ => ?_)
    exact (wp_pure _).mpr ((wp_pure _).mpr (wps_insert_all_raises hdb hok))
  · rw [if_neg hneeds]
    exact (wp_pure _).mpr (wps_insert_all_raises hdb hok)

/-- Once the file has been read, its size is not an issue any more. -/
theorem wps_ingest_document_other {request : IngestRequest} {β : Type} {f : Document → Handler β}
    {Q : Except Exc β → Session → Prop} (herr : ∀ e s', OtherError e → Q (.error e) s')
    (hok : ∀ document s', wps (f document) Q s') :
    wps ((ingest_document srv env request).rethrow ingest_answer >>= f) Q s := by
  refine wps_bind ((wp_rethrow _ _).mpr ?_)
  have hdb : ∀ v, OtherError (ingest_answer (.database v)) :=
    fun v => ⟨(fun h => by cases h), (fun h => by cases h)⟩
  have hmany : OtherError (ingest_answer .multiple_results_found) :=
    ⟨(fun h => by cases h), (fun h => by cases h)⟩
  have hstore : ∀ e, OtherError (ingest_answer (.store e)) :=
    fun e => ⟨(fun h => by cases h), (fun h => by cases h)⟩
  have hduplicate : ∀ id, OtherError (ingest_answer (.duplicate_document id)) :=
    fun id => ⟨(fun h => by cases h), (fun h => by cases h)⟩
  refine wps_select_one_bind (herr _ _ hmany) (fun _ => ?_) fun existing _ _ _ => ?_
  · refine wps_bind (wps_bind (wp_perform_ext.mpr ?_))
    by_cases hworks : s.ext.outcome = .works
    swap
    · simp only [run_ext, if_neg hworks]
      exact (wp_raise _).mpr (herr _ _ (hstore _))
    simp only [run_ext, if_pos hworks]
    refine (wp_pure _).mpr (wps_bind (wps_ok_or.mpr ?_))
    cases hread : extract_text_layer srv request.data default_max_pages
        default_max_chars_per_page with
    | error e => exact herr _ _ (other_unreadable hread)
    | ok extraction =>
      refine wps_bind (wps_record_document_raises (fun v s' => herr _ _ (hdb v)) fun s' => ?_)
      exact (wp_pure _).mpr (hok _ s')
  · exact (wp_raise _).mpr (herr _ _ (hduplicate _))

/-! ### An upload of the owner -/

/-- The declared length is over the cap. -/
def OverDeclared (upload : Upload) : Prop :=
  ∃ n, upload.content_length = some n ∧ default_max_upload_bytes < n

/-- An owner's file is held against the cap before anything else. -/
theorem wps_upload_sized {credentials : Option Token} {upload : Upload} {auth : Authenticated}
    {c : Case} {Q : Except Exc (Reply Token) → Session → Prop} (hc : schema.Consistent s.db)
    (hauth : SignedIn srv env credentials s.db auth) (hmem : c ∈ s.db .case_)
    (howner : c.owner_id = auth.account.id)
    (hover : OverDeclared upload ∨ default_max_upload_bytes < upload.data.length →
      Q (.error (.http too_large)) s)
    (hempty : ¬ OverDeclared upload → upload.data = [] → Q (.error (.http empty_file)) s)
    (herr : ¬ OverDeclared upload → upload.data.length ≤ default_max_upload_bytes →
      upload.data ≠ [] → ∀ e s', OtherError e → Q (.error e) s')
    (hok : ¬ OverDeclared upload → upload.data.length ≤ default_max_upload_bytes →
      upload.data ≠ [] → ∀ reply s', Q (.ok reply) s') :
    wps (upload_document srv env credentials c.id upload) Q s := by
  refine wps_current_user_admitted hc hauth (wps_owned_case_admitted hc hmem howner ?_)
  refine wps_bind ((wp_rethrow _ _).mpr ?_)
  rw [read_bounded_eq, flatten_stream]
  refine (wp_ite _ _).mpr ⟨fun hdeclared => (wp_raise _).mpr (hover (.inl ?_)),
    fun hdeclared => ?_⟩
  · simpa [OverDeclared, Option.any_eq_true] using hdeclared
  have hnot : ¬ OverDeclared upload := by
    simpa [OverDeclared, Option.any_eq_true] using hdeclared
  refine (wp_ite _ _).mpr ⟨fun hlarge => (wp_raise _).mpr (hover (.inr hlarge)), fun hfits => ?_⟩
  refine (wp_ite _ _).mpr ⟨fun hnone => (wp_raise _).mpr
    (hempty hnot (List.isEmpty_iff.mp hnone)), fun hsome => (wp_pure _).mpr ?_⟩
  have hle : upload.data.length ≤ default_max_upload_bytes := Nat.not_lt.mp hfits
  have hne : upload.data ≠ [] := fun h => hsome (List.isEmpty_iff.mpr h)
  have hother := herr hnot hle hne
  refine wps_some_or_bind (fun _ => hother _ _ ⟨by decide, by decide⟩) fun source _ => ?_
  refine wps_ingest_document_other hother fun document s' => ?_
  refine wps_execute_bind (fun v => hother _ _ ⟨nofun, nofun⟩) fun _ => ?_
  exact (wp_pure _).mpr (hok hnot hle hne _ _)

/-! ### The guarantee -/

/-- The two refusals of a file's size, whatever the chunks it arrives in. -/
structure CapExact (srv : Server Token) (env : Env) (credentials : Option Token) (case_id : Uuid)
    (upload : Upload) (w : Committed) : Prop where
  chunks : ∀ chunks : List Bytes, chunks.flatten = upload.data →
    read_bounded chunks default_max_upload_bytes upload.content_length =
      read_bounded (stream upload.data) default_max_upload_bytes upload.content_length
  too_large : (serve srv env ⟨credentials, .upload_document case_id upload⟩ w).1 =
    .refused too_large ↔ default_max_upload_bytes < upload.data.length
  empty : (serve srv env ⟨credentials, .upload_document case_id upload⟩ w).1 =
    .refused empty_file ↔ upload.data.length = 0

theorem OtherError.answer {e : Exc} (h : OtherError e) (route : Route Token) :
    answer route (.error e) ≠ .refused too_large ∧
      answer route (.error e) ≠ .refused empty_file := by
  constructor
  · intro heq
    cases e <;> cases heq
    exact h.1 rfl
  · intro heq
    cases e <;> cases heq
    exact h.2 rfl

/-- What an owner's upload is answered, by its sizes. -/
theorem serve_upload_sized {w : Committed} {credentials : Option Token} {auth : Authenticated}
    {c : Case} (hc : schema.Consistent w.db) (hauth : SignedIn srv env credentials w.db auth)
    (hmem : c ∈ w.db .case_) (howner : c.owner_id = auth.account.id) (upload : Upload) :
    ((serve srv env ⟨credentials, .upload_document c.id upload⟩ w).1 = .refused too_large ↔
        OverDeclared upload ∨ default_max_upload_bytes < upload.data.length) ∧
      ((serve srv env ⟨credentials, .upload_document c.id upload⟩ w).1 = .refused empty_file ↔
        ¬ OverDeclared upload ∧ upload.data = []) := by
  let P : Response Token → Committed → Prop := fun response _ =>
    (response = .refused too_large ↔
        OverDeclared upload ∨ default_max_upload_bytes < upload.data.length) ∧
      (response = .refused empty_file ↔ ¬ OverDeclared upload ∧ upload.data = [])
  suffices hP : P (serve srv env ⟨credentials, .upload_document c.id upload⟩ w).1
    (serve srv env ⟨credentials, .upload_document c.id upload⟩ w).2 from hP
  have hneither : ¬ OverDeclared upload → upload.data.length ≤ default_max_upload_bytes →
      upload.data ≠ [] → ∀ response w', response ≠ .refused too_large →
      response ≠ .refused empty_file → P response w' := by
    intro hnot hle hne response w' hlarge hempty
    refine ⟨iff_of_false hlarge ?_, iff_of_false hempty fun h => hne h.2⟩
    rintro (hover | hover)
    · exact hnot hover
    · omega
  refine serve_wps (wps_upload_sized hc hauth hmem howner (fun hover => ?_) (fun hnot hnil => ?_)
    (fun hnot hle hne e s' he => ?_) (fun hnot hle hne reply s' => ⟨fun _ => ?_, fun _ => ?_⟩))
  · refine ⟨iff_of_true rfl hover, iff_of_false (fun h => by cases h) ?_⟩
    rintro ⟨hnot, hnil⟩
    rcases hover with hdeclared | hlarge
    · exact hnot hdeclared
    · rw [hnil] at hlarge
      exact absurd hlarge (Nat.not_lt_zero _)
  · refine ⟨iff_of_false (fun h => by cases h) ?_, iff_of_true rfl ⟨hnot, hnil⟩⟩
    rintro (hdeclared | hlarge)
    · exact hnot hdeclared
    · rw [hnil] at hlarge
      exact absurd hlarge (Nat.not_lt_zero _)
  · exact hneither hnot hle hne _ w (he.answer _).1 (he.answer _).2
  · exact hneither hnot hle hne _ w nofun nofun
  · exact hneither hnot hle hne _ w nofun nofun

/-- **The upload cap.** With a true length declared, or none, the cap is exact just when
    the whole body is within it or the file alone is over it. -/
theorem upload_cap_exact_iff {C : History Token → Step Token → Prop} {h : History Token}
    (hr : Reaches srv C History.start h) {credentials : Option Token} {auth : Authenticated}
    (hauth : SignedIn srv env credentials h.world.db auth) {c : Case}
    (hmem : c ∈ h.world.db .case_) (howner : c.owner_id = auth.account.id) {upload : Upload}
    (overhead : Nat) (hdeclared : upload.content_length = none ∨
      upload.content_length = some (upload.data.length + overhead)) :
    CapExact srv env credentials c.id upload h.world ↔
      upload.content_length = none ∨ default_max_upload_bytes < upload.data.length ∨
        upload.data.length + overhead ≤ default_max_upload_bytes := by
  obtain ⟨hlarge, hempty⟩ := serve_upload_sized hr.consistent hauth hmem howner upload
  have hover : OverDeclared upload ↔ upload.content_length ≠ none ∧
      default_max_upload_bytes < upload.data.length + overhead := by
    rcases hdeclared with hnone | hsome
    · simp [OverDeclared, hnone]
    · simp [OverDeclared, hsome]
  constructor
  · intro hexact
    -- otherwise the body is over the cap and the file is not: the answer is 413 all the same
    by_contra hno
    have hlt : default_max_upload_bytes < upload.data.length :=
      hexact.too_large.mp (hlarge.mpr (.inl (hover.mpr ?_)))
    · exact hno (.inr (.inl hlt))
    · refine ⟨fun hnone => hno (.inl hnone), ?_⟩
      have hbody : ¬ upload.data.length + overhead ≤ default_max_upload_bytes :=
        fun hle => hno (.inr (.inr hle))
      omega
  · intro hsizes
    have hiff : OverDeclared upload → default_max_upload_bytes < upload.data.length := by
      intro hdecl
      obtain ⟨hsome, hbody⟩ := hover.mp hdecl
      rcases hsizes with hnone | hfile | hle
      · exact absurd hnone hsome
      · exact hfile
      · omega
    refine ⟨fun chunks hchunks => ?_, ?_, ?_⟩
    · rw [read_bounded_eq, read_bounded_eq, hchunks, flatten_stream]
    · rw [hlarge]
      exact ⟨fun h => h.elim hiff id, .inr⟩
    · rw [hempty, List.length_eq_zero_iff]
      refine ⟨fun h => h.2, fun hnil => ⟨fun hdecl => ?_, hnil⟩⟩
      have hfile := hiff hdecl
      rw [hnil] at hfile
      exact absurd hfile (Nat.not_lt_zero _)

/-- A small file with the length of its body declared. -/
def small_file : Upload := ⟨Sample.bytes_of "hello", none, none, "upload", some 205⟩

theorem small_file_cap_exact : CapExact Sample.server (Sample.env 5 (104 * second))
    (Sample.bearer (101 * second)) first_case.id small_file filed.world := by
  have hreach : Reaches Sample.server (fun _ _ => True) .start filed :=
    reaches_filed.mono fun _ _ _ => trivial
  exact (upload_cap_exact_iff hreach first_account_signed_in (by decide +kernel) rfl 200
    (.inr rfl)).mpr (.inr (.inr (by decide)))

/-- A file of just as many bytes as the cap allows. -/
def full_file : Upload where
  data := List.replicate default_max_upload_bytes 0
  filename := none
  title := none
  source := "upload"
  content_length := some (default_max_upload_bytes + 200)

/-- It is refused for the boundaries around it. -/
theorem full_file_refused :
    Reaches Sample.server (fun _ _ => True) .start filed ∧
    SignedIn Sample.server (Sample.env 5 (104 * second)) (Sample.bearer (101 * second))
      filed.world.db first_account ∧
    first_case ∈ filed.world.db .case_ ∧ first_case.owner_id = first_account.account.id ∧
    full_file.content_length = some (full_file.data.length + 200) ∧
    (serve Sample.server (Sample.env 5 (104 * second))
      ⟨Sample.bearer (101 * second), .upload_document first_case.id full_file⟩ filed.world).1 =
        .refused too_large ∧
    ¬ default_max_upload_bytes < full_file.data.length := by
  have hreach : Reaches Sample.server (fun _ _ => True) .start filed :=
    reaches_filed.mono fun _ _ _ => trivial
  have hmem : first_case ∈ filed.world.db .case_ := by decide +kernel
  have hlen : full_file.data.length = default_max_upload_bytes := List.length_replicate
  have hover : OverDeclared full_file := ⟨default_max_upload_bytes + 200, rfl, by omega⟩
  refine ⟨hreach, first_account_signed_in, hmem, rfl, ?_, ?_, ?_⟩
  · rw [hlen]
    rfl
  · exact (serve_upload_sized hreach.consistent first_account_signed_in hmem rfl full_file).1.mpr
      (.inl hover)
  · rw [hlen]
    exact Nat.lt_irrefl _

end CounselReady
