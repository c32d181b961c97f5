import CounselReady.Sample
import CounselReady.Framework.Text

/-! # Recovery Codes, Typed Again

    A recovery code is twenty hexadecimal digits. It is shown in groups and kept as
    a digest, and between the two somebody types it: with other separators, in
    lower case, with blanks around it.

    * `Spaced`, `Retyped`: what typing may do to the digits.
    * `normalize_surrounded`: what normalisation leaves of a text.
    * `recovery_codes_retyped`: it undoes the typing, and two texts have one digest
      only if they have the same digits.
-/

namespace CounselReady

open Framework

variable {Token : Type} {srv : Server Token}

/-! ### Digits and separators -/

def is_separator (c : Char) : Bool := c == '-' || c == ' '

def is_upper_hex (c : Char) : Bool :=
  (decide ('0' ≤ c) && decide (c ≤ '9')) || (decide ('A' ≤ c) && decide (c ≤ 'F'))

def is_hex (c : Char) : Bool := is_upper_hex c || (decide ('a' ≤ c) && decide (c ≤ 'f'))

/-- Over hexadecimal digits, dashes and spaces. -/
def CodeText (text : List Char) : Prop := ∀ c ∈ text, (is_hex c || is_separator c) = true

/-- The hexadecimal digits of a text, whatever their case. -/
def hex_of (text : List Char) : List Char := (text.filter is_hex).map Char.toUpper

/-- The digits that are drawn for one code, in upper case. -/
structure DrawnDigits (r : String) : Prop where
  length : r.toList.length = 20
  digits : ∀ c ∈ r.toList, is_upper_hex c = true

/-- The digits, in either case, with dashes and spaces anywhere. -/
inductive Spaced : List Char → List Char → Prop where
  | nil : Spaced [] []
  | separator {c : Char} {digits typed : List Char} (hc : is_separator c = true)
      (h : Spaced digits typed) : Spaced digits (c :: typed)
  | digit {c d : Char} {digits typed : List Char} (hc : c = d ∨ c = d.toLower)
      (h : Spaced digits typed) : Spaced (d :: digits) (c :: typed)

/-- The same between two runs of whitespace. -/
def Retyped (r typed : String) : Prop :=
  ∃ before middle after : List Char, Spaced r.toList middle ∧
    (∀ c ∈ before, py_space c = true) ∧ (∀ c ∈ after, py_space c = true) ∧
    typed.toList = before ++ middle ++ after

/-- `str.upper` on a text of ASCII characters. -/
def UpperAscii (srv : Server Token) : Prop :=
  ∀ s : String, is_ascii s = true → srv.upper s = String.ofList (s.toList.map Char.toUpper)

/-! ### One character -/

section character
variable {c d : Char}

theorem code_char_ascii (h : (is_hex c || is_separator c) = true) : c.toNat < 128 := by
  have hnine : '9'.toNat = 57 := rfl
  have hupper : 'F'.toNat = 70 := rfl
  have hlower : 'f'.toNat = 102 := rfl
  simp only [is_hex, is_upper_hex, is_separator, Bool.or_eq_true, Bool.and_eq_true,
    decide_eq_true_eq, beq_iff_eq] at h
  rcases h with ((⟨_, hle⟩ | ⟨_, hle⟩) | ⟨_, hle⟩) | (rfl | rfl)
  · exact Nat.lt_of_le_of_lt (Char.le_def.mp hle) (by decide)
  · exact Nat.lt_of_le_of_lt (Char.le_def.mp hle) (by decide)
  · exact Nat.lt_of_le_of_lt (Char.le_def.mp hle) (by decide)
  · decide
  · decide

/-- In upper case a separator is one still, and a digit is none. -/
theorem upper_code_char (h : (is_hex c || is_separator c) = true) :
    (c.toUpper != '-' && c.toUpper != ' ') = is_hex c := by
  have hall : ∀ c : Char, c.toNat < 128 → (is_hex c || is_separator c) = true →
      (c.toUpper != '-' && c.toUpper != ' ') = is_hex c := ascii_cases (by decide)
  exact hall c (code_char_ascii h) h

/-- A digit is no whitespace. -/
theorem space_not_hex (h : (is_hex c || is_separator c) = true) (hspace : py_space c = true) :
    is_hex c = false := by
  have hall : ∀ c : Char, c.toNat < 128 → py_space c = true → is_hex c = false :=
    ascii_cases (by decide)
  exact hall c (code_char_ascii h) hspace

theorem separator_not_hex (h : is_separator c = true) : is_hex c = false := by
  have hcode : (is_hex c || is_separator c) = true := by rw [h, Bool.or_true]
  have hall : ∀ c : Char, c.toNat < 128 → is_separator c = true → is_hex c = false :=
    ascii_cases (by decide)
  exact hall c (code_char_ascii hcode) h

/-- A digit in either case is the digit in upper case. -/
theorem digit_retyped (hd : is_upper_hex d = true) (hc : c = d ∨ c = d.toLower) :
    is_hex c = true ∧ c.toUpper = d := by
  have hcode : (is_hex d || is_separator d) = true := by
    rw [is_hex, hd, Bool.true_or, Bool.true_or]
  have hall : ∀ d : Char, d.toNat < 128 → is_upper_hex d = true →
      (is_hex d = true ∧ d.toUpper = d) ∧ is_hex d.toLower = true ∧ d.toLower.toUpper = d :=
    ascii_cases (by decide)
  obtain ⟨hsame, hlower⟩ := hall d (code_char_ascii hcode) hd
  rcases hc with rfl | rfl
  · exact hsame
  · exact hlower

end character

/-! ### What typing does -/

theorem Spaced.code_text {digits typed : List Char} (h : Spaced digits typed)
    (hdigits : ∀ d ∈ digits, is_upper_hex d = true) : CodeText typed := by
  induction h with
  | nil =>
    intro c hc
    exact absurd hc List.not_mem_nil
  | separator hc h ih =>
    intro x hx
    rcases List.mem_cons.mp hx with rfl | hx
    · rw [hc, Bool.or_true]
    · exact ih hdigits x hx
  | digit hc h ih =>
    intro x hx
    rcases List.mem_cons.mp hx with rfl | hx
    · rw [(digit_retyped (hdigits _ List.mem_cons_self) hc).1, Bool.true_or]
    · exact ih (fun d hd => hdigits d (List.mem_cons_of_mem _ hd)) x hx

/-- The digits are there, and no other. -/
theorem Spaced.hex_of_typed {digits typed : List Char} (h : Spaced digits typed)
    (hdigits : ∀ d ∈ digits, is_upper_hex d = true) : hex_of typed = digits := by
  induction h with
  | nil => rfl
  | separator hc h ih =>
    unfold hex_of
    rw [List.filter_cons_of_neg (by simp [separator_not_hex hc])]
    exact ih hdigits
  | digit hc h ih =>
    obtain ⟨hhex, hupper⟩ := digit_retyped (hdigits _ List.mem_cons_self) hc
    have hrest := ih fun d hd => hdigits d (List.mem_cons_of_mem _ hd)
    unfold hex_of at hrest ⊢
    rw [List.filter_cons_of_pos hhex, List.map_cons, hupper, hrest]

theorem spaced_self (digits : List Char) : Spaced digits digits := by
  induction digits with
  | nil => exact .nil
  | cons d digits ih => exact .digit (.inl rfl) ih

theorem Spaced.append {digits digits' typed typed' : List Char} (h : Spaced digits typed)
    (h' : Spaced digits' typed') : Spaced (digits ++ digits') (typed ++ typed') := by
  induction h with
  | nil => exact h'
  | separator hc h ih => exact .separator hc ih
  | digit hc h ih => exact .digit hc ih

/-- The grouped form is one way to type the digits. -/
theorem generated_retyped {r raw : String} (hr : DrawnDigits r) (hraw : srv.upper raw = r) :
    Retyped r (generate_recovery_code srv raw) := by
  subst hraw
  have hsplit : ∀ l : List Char, l.length = 20 →
      l = l.take 5 ++ ((l.drop 5).take 5 ++ ((l.drop 10).take 5 ++ (l.drop 15).take 5)) := by
    intro l hl
    have hlast : (l.drop 15).take 5 = l.drop 15 := List.take_of_length_le (by simp [hl])
    have hthird := List.take_append_drop 5 (l.drop 10)
    have hsecond := List.take_append_drop 5 (l.drop 5)
    have hfirst := List.take_append_drop 5 l
    rw [List.drop_drop] at hthird hsecond
    rw [hlast, hthird, hsecond, hfirst]
  have hspaced : ∀ a b c d : List Char,
      Spaced (a ++ (b ++ (c ++ d))) (a ++ '-' :: b ++ '-' :: c ++ '-' :: d) := by
    intro a b c d
    have hd := Spaced.separator (c := '-') rfl (spaced_self d)
    have hc := Spaced.separator (c := '-') rfl ((spaced_self c).append hd)
    have hb := Spaced.separator (c := '-') rfl ((spaced_self b).append hc)
    simpa only [List.append_assoc, List.cons_append] using (spaced_self a).append hb
  have htyped : Spaced (srv.upper raw).toList (generate_recovery_code srv raw).toList := by
    rw [hsplit _ hr.length]
    unfold generate_recovery_code
    rw [String.toList_ofList]
    exact hspaced _ _ _ _
  exact ⟨[], _, [], htyped, fun c hc => absurd hc List.not_mem_nil,
    fun c hc => absurd hc List.not_mem_nil, by rw [List.nil_append, List.append_nil]⟩

/-! ### What normalisation leaves -/

/-- Normalisation leaves the digits, in upper case. -/
theorem normalize_surrounded (hupper : UpperAscii srv) {typed : String}
    {before middle after : List Char} (htyped : typed.toList = before ++ middle ++ after)
    (hbefore : ∀ c ∈ before, py_space c = true) (hafter : ∀ c ∈ after, py_space c = true)
    (hcode : CodeText middle) :
    normalize_recovery_code srv typed = String.ofList (hex_of middle) := by
  have hstrip : (strip typed).toList = trim py_space middle := by
    show (String.ofList (trim py_space typed.toList)).toList = _
    rw [String.toList_ofList, htyped, trim_surrounded hbefore hafter]
  have hkept : CodeText (trim py_space middle) := fun c hc => hcode c (mem_of_mem_trim hc)
  have hascii : is_ascii (strip typed) = true := by
    unfold is_ascii
    rw [hstrip, List.all_eq_true]
    exact fun c hc => decide_eq_true (code_char_ascii (hkept c hc))
  have hraised : (srv.upper (strip typed)).toList = (trim py_space middle).map Char.toUpper := by
    rw [hupper _ hascii, String.toList_ofList, hstrip]
  unfold normalize_recovery_code without
  rw [String.toList_ofList, hraised, List.filter_filter, List.filter_map]
  -- what goes are the separators, and the trimming took none of the digits
  have hdigits : (trim py_space middle).filter
      ((fun c => c != ' ' && c != '-') ∘ Char.toUpper) = middle.filter is_hex := by
    rw [← filter_trim fun c hc hspace => space_not_hex (hcode c hc) hspace]
    refine List.filter_congr fun c hc => ?_
    rw [← upper_code_char (hkept c hc)]
    exact Bool.and_comm _ _
  rw [hdigits]
  rfl

/-- One digest, one sequence of digits. -/
theorem hash_eq_iff (hupper : UpperAscii srv) (hsha : Function.Injective srv.sha256) {s t : String}
    (hs : CodeText s.toList) (ht : CodeText t.toList) :
    hash_recovery_code srv s = hash_recovery_code srv t ↔ hex_of s.toList = hex_of t.toList := by
  have hplain : ∀ {s : String}, CodeText s.toList →
      normalize_recovery_code srv s = String.ofList (hex_of s.toList) := fun {s} hs =>
    normalize_surrounded hupper (by simp)
      (fun c hc => absurd hc List.not_mem_nil) (fun c hc => absurd hc List.not_mem_nil) hs
  unfold hash_recovery_code
  rw [hplain hs, hplain ht]
  constructor
  · intro h
    have htext := utf8_inj (hsha h)
    simpa using congrArg String.toList htext
  · intro h
    rw [h]

/-- **Recovery codes.** Whatever separators, case and blanks the twenty digits are typed
    with, normalisation gives them back, and the form they are shown in is one of these;
    and two texts of digits and separators have one digest exactly if they have the same
    digits. -/
theorem recovery_codes_retyped (hupper : UpperAscii srv) (hsha : Function.Injective srv.sha256) :
    (∀ r, DrawnDigits r →
      (∀ typed, Retyped r typed → normalize_recovery_code srv typed = r) ∧
      ∀ raw, srv.upper raw = r → Retyped r (generate_recovery_code srv raw)) ∧
    ∀ s t : String, CodeText s.toList → CodeText t.toList →
      (hash_recovery_code srv s = hash_recovery_code srv t ↔
        hex_of s.toList = hex_of t.toList) := by
  refine ⟨fun r hr => ⟨?_, fun raw hraw => generated_retyped hr hraw⟩,
    fun s t hs ht => hash_eq_iff hupper hsha hs ht⟩
  rintro typed ⟨before, middle, after, hspaced, hbefore, hafter, htyped⟩
  have hnormal := normalize_surrounded hupper htyped hbefore hafter (hspaced.code_text hr.digits)
  rw [hnormal, hspaced.hex_of_typed hr.digits, String.ofList_toList]

namespace Sample

theorem text_of_injective : Function.Injective text_of := by
  have hbyte : ∀ n < 256, (Char.ofNat n).toNat = n := by
    intro n hn
    have hvalid : n.isValidChar := .inl (by omega)
    unfold Char.ofNat
    rw [dif_pos hvalid]
    rfl
  have hback : ∀ data, bytes_of (text_of data) = data := by
    intro data
    unfold bytes_of text_of
    rw [String.toList_ofList, List.map_map]
    refine List.map_congr_left (fun b _ => ?_) |>.trans (List.map_id data)
    show UInt8.ofNat (Char.ofNat b.toNat).toNat = b
    rw [hbyte b.toNat b.toNat_lt, UInt8.ofNat_toNat]
  exact fun a b h => by rw [← hback a, ← hback b, h]

/-- Upper case is that of ASCII, and digests tell all inputs apart. -/
def typing_server : Server Payload :=
  { server with upper := fun s => String.ofList (s.toList.map Char.toUpper), sha256 := text_of }

end Sample

/-- A code as it is shown, and a digest that takes the separators and the case for nothing. -/
theorem shown_code_normalizes :
    normalize_recovery_code Sample.typing_server
        (generate_recovery_code Sample.typing_server "0a1b2c3d4e5f60718293") =
        "0A1B2C3D4E5F60718293" ∧
      hash_recovery_code Sample.typing_server "0A1B2-C3D4E" =
        hash_recovery_code Sample.typing_server "0a1b 2c3d4e" := by
  have hlaw := recovery_codes_retyped (fun _ _ => rfl : UpperAscii Sample.typing_server)
    Sample.text_of_injective
  have hdrawn : DrawnDigits "0A1B2C3D4E5F60718293" := ⟨by decide, List.all_eq_true.mp (by decide)⟩
  have hshown := (hlaw.1 _ hdrawn).2 "0a1b2c3d4e5f60718293" (by decide)
  refine ⟨(hlaw.1 _ hdrawn).1 _ hshown, (hlaw.2 _ _ ?_ ?_).mpr (by decide)⟩
  · exact List.all_eq_true.mp (by decide)
  · exact List.all_eq_true.mp (by decide)

end CounselReady
