import CounselReady.Auth.Tokens

/-! # Reading an Upload

    `app.ingest.limits` and `app.ingest.pdf`: the bounded reader, and the text
    layer of a PDF, page by page.
-/

namespace CounselReady

open Framework Handler

variable {Token : Type}

/-! ### The bounded reader -/

def default_max_upload_bytes : Nat := 100 * 1024 * 1024

def read_chunks (max_bytes : Nat) (buffer : Bytes) : List Bytes → Handler Bytes
  | [] => if buffer.isEmpty then .raise .empty_upload else pure buffer
  | chunk :: chunks =>
      let buffer := buffer ++ chunk
      -- the rest of the stream is not drained
      if max_bytes < buffer.length then .raise .upload_too_large
      else read_chunks max_bytes buffer chunks

def read_bounded (chunks : List Bytes) (max_bytes : Nat) (declared_length : Option Nat) :
    Handler Bytes :=
  if declared_length.any (fun n => decide (max_bytes < n)) then .raise .upload_too_large
  else read_chunks max_bytes [] chunks

/-- An asynchronous iterator: what its pulls yield, up to the one that ends it. -/
structure Chunks where
  pull : Nat → Option Bytes
  ended : ∀ n, pull n = none → pull (n + 1) = none

/-- The loop of `read_bounded`, for a number of turns: its result and how many chunks it
    has pulled, when it has come to one. -/
def read_turns (max_bytes : Nat) (chunks : Chunks) :
    (turns pulled : Nat) → (buffer : Bytes) → Option (Except Exc Bytes × Nat)
  | 0, _, _ => none
  | turns + 1, pulled, buffer =>
      match chunks.pull pulled with
      | none => some (if buffer.isEmpty then .error .empty_upload else .ok buffer, pulled)
      | some chunk =>
          let buffer := buffer ++ chunk
          if max_bytes < buffer.length then some (.error .upload_too_large, pulled + 1)
          else read_turns max_bytes chunks turns (pulled + 1) buffer

/-- `read_bounded` on an iterator that may never end. -/
def read_stream (chunks : Chunks) (max_bytes : Nat) (declared_length : Option Int) (turns : Nat) :
    Option (Except Exc Bytes × Nat) :=
  if declared_length.any (fun n => decide ((max_bytes : Int) < n)) then
    some (.error .upload_too_large, 0)
  else read_turns max_bytes chunks turns 0 []

/-! ### The text layer -/

/-- `b"%PDF-"` -/
def pdf_magic : Bytes := [0x25, 0x50, 0x44, 0x46, 0x2D]

def default_max_pages : Nat := 2000

def default_max_chars_per_page : Nat := 200000

structure ExtractedPage where
  page_number : Int
  text : String
  deriving DecidableEq

def has_text (text : String) : Bool := !(strip text).isEmpty

structure ExtractionResult where
  pages : List ExtractedPage
  deriving DecidableEq

def ExtractionResult.needs_ocr (r : ExtractionResult) : Bool :=
  r.pages.any (fun page => !has_text page.text)

/-- What an exception of pypdf is once no clause has caught it. -/
def PdfError.escaped : PdfError → Exc
  | .value_error => .value_error
  | .key_error => .key_error
  | _ => .unclassified

/-- One page: the exceptions that stand for an unreadable page give an empty
    text, any other escapes. -/
def extract_page (reader : PdfReader) (max_chars_per_page : Nat) (index : Nat) :
    Except Exc ExtractedPage :=
  let page (text : String) : ExtractedPage :=
    ⟨(index : Int) + 1, String.ofList (text.toList.take max_chars_per_page)⟩
  match reader.extract_text index with
  | .ok text => .ok (page (text.getD ""))
  | .error .py_pdf => .ok (page "")
  | .error .value_error => .ok (page "")
  | .error .key_error => .ok (page "")
  | .error e => .error e.escaped

def extract_pages (reader : PdfReader) (max_chars_per_page : Nat) :
    List Nat → Except Exc (List ExtractedPage)
  | [] => .ok []
  | index :: indices =>
      match extract_page reader max_chars_per_page index with
      | .error e => .error e
      | .ok page =>
          match extract_pages reader max_chars_per_page indices with
          | .error e => .error e
          | .ok pages => .ok (page :: pages)

/-- The empty password is tried before a protected file is given up. -/
def unlock (reader : PdfReader) : Except Exc Unit :=
  if reader.is_encrypted then
    match reader.decrypt with
    | .ok true => .ok ()
    | .ok false => .error .encrypted_pdf
    | .error .py_pdf => .error .encrypted_pdf
    | .error .not_implemented => .error .encrypted_pdf
    | .error e => .error e.escaped
  else .ok ()

def extract_text_layer (srv : Server Token) (data : Bytes) (max_pages : Nat)
    (max_chars_per_page : Nat) : Except Exc ExtractionResult :=
  if pdf_magic.isPrefixOf data then
    match srv.pdf_reader data with
    | .error .py_pdf => .error .unreadable_pdf
    | .error e => .error e.escaped
    | .ok reader =>
        match unlock reader with
        | .error e => .error e
        | .ok _ =>
            match reader.page_count with
            | .error .py_pdf => .error .unreadable_pdf
            | .error e => .error e.escaped
            | .ok page_count =>
                if max_pages < page_count then .error .too_many_pages
                else
                  match extract_pages reader max_chars_per_page (List.range page_count) with
                  | .error e => .error e
                  | .ok pages => if pages.isEmpty then .error .unreadable_pdf else .ok ⟨pages⟩
  else .error .not_a_pdf

/-! ### What reading yields -/

theorem length_extract_pages {reader : PdfReader} {max_chars : Nat} {indices : List Nat}
    {pages : List ExtractedPage} (h : extract_pages reader max_chars indices = .ok pages) :
    pages.length = indices.length := by
  induction indices generalizing pages with
  | nil =>
    cases h
    rfl
  | cons index indices ih =>
    unfold extract_pages at h
    split at h
    · cases h
    · next page hpage =>
      split at h
      · cases h
      · next rest hrest =>
        cases h
        simp [ih hrest]

theorem page_number_extract_page {reader : PdfReader} {max_chars index : Nat}
    {page : ExtractedPage} (h : extract_page reader max_chars index = .ok page) :
    page.page_number = (index : Int) + 1 := by
  unfold extract_page at h
  dsimp only at h
  split at h
  all_goals cases h
  all_goals rfl

theorem page_numbers_extract_pages {reader : PdfReader} {max_chars : Nat} {indices : List Nat}
    {pages : List ExtractedPage} (h : extract_pages reader max_chars indices = .ok pages) :
    pages.map ExtractedPage.page_number = indices.map (fun index : Nat => (index : Int) + 1) := by
  induction indices generalizing pages with
  | nil =>
    cases h
    rfl
  | cons index indices ih =>
    unfold extract_pages at h
    split at h
    · cases h
    · next page hpage =>
      split at h
      · cases h
      · next rest hrest =>
        cases h
        rw [List.map_cons, List.map_cons, page_number_extract_page hpage, ih hrest]

/-- The pages are numbered from one. -/
theorem extract_text_layer_numbers {srv : Server Token} {data : Bytes} {max_pages max_chars : Nat}
    {r : ExtractionResult} (h : extract_text_layer srv data max_pages max_chars = .ok r) :
    ∃ n, r.pages.map ExtractedPage.page_number = (List.range n).map (fun i : Nat => (i : Int) + 1) := by
  unfold extract_text_layer at h
  repeat' split at h
  all_goals try cases h
  next pages hpages _ => exact ⟨_, page_numbers_extract_pages hpages⟩

/-- A document that is read has a page, and no more than the cap. -/
theorem extract_text_layer_length {srv : Server Token} {data : Bytes} {max_pages max_chars : Nat}
    {r : ExtractionResult} (h : extract_text_layer srv data max_pages max_chars = .ok r) :
    0 < r.pages.length ∧ r.pages.length ≤ max_pages := by
  unfold extract_text_layer at h
  repeat' split at h
  all_goals try cases h
  next hcount _ pages hpages hne =>
    have hlen := length_extract_pages hpages
    rw [List.length_range] at hlen
    have hpos : pages ≠ [] := by simpa using hne
    exact ⟨List.length_pos_of_ne_nil hpos, by dsimp only; omega⟩

end CounselReady
