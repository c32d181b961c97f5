import CounselReady.Framework.Utf16

/-! # Flat JSON Objects

    A writer of objects whose values are texts and numbers, which keeps to
    printable ASCII, and a reader. What is written reads back as what it was
    made of (`loads_dumps`), whatever the texts hold.
-/

namespace Framework

namespace Json

inductive Value where
  | text (s : String)
  | number (literal : String)
  deriving DecidableEq

/-- The members of an object, in order. -/
abbrev Members := List (String × Value)

/-! ### Writing -/

def printable (c : Char) : Bool := decide (32 ≤ c.toNat ∧ c.toNat ≤ 126)

/-- The letter of a two-character escape. -/
def short_escape (c : Char) : Option Char :=
  if c = '"' then some '"'
  else if c = '\\' then some '\\'
  else if c = '\n' then some 'n'
  else if c = '\r' then some 'r'
  else if c = '\t' then some 't'
  else if c = '\x0c' then some 'f'
  else if c = '\x08' then some 'b'
  else none

theorem toNat_lt (c : Char) : c.toNat < 0x110000 := by
  rcases c.valid with h | h
  · exact Nat.lt_trans h (by decide)
  · exact h.2

def code_point (c : Char) : CodePoint := ⟨c.toNat, toNat_lt c⟩

/-- Four hexadecimal digits. -/
def hex4 (u : CodeUnit) : List Char :=
  [Nat.digitChar (u / 4096 % 16), Nat.digitChar (u / 256 % 16), Nat.digitChar (u / 16 % 16),
    Nat.digitChar (u % 16)]

def escape_unit (u : CodeUnit) : List Char := '\\' :: 'u' :: hex4 u

def escape (c : Char) : List Char :=
  match short_escape c with
  | some e => ['\\', e]
  | none => if printable c then [c] else (code_point c).units.flatMap escape_unit

def quote (s : String) : List Char := '"' :: s.toList.flatMap escape ++ ['"']

def Value.write : Value → List Char
  | .text s => quote s
  | .number literal => literal.toList

def write_member (m : String × Value) : List Char := quote m.1 ++ ':' :: ' ' :: m.2.write

def write_members : Members → List Char
  | [] => []
  | [m] => write_member m
  | m :: m' :: rest => write_member m ++ ',' :: ' ' :: write_members (m' :: rest)

def dumps (members : Members) : List Char := '\x7b' :: write_members members ++ ['\x7d']

/-! ### Reading -/

def unescape_short (e : Char) : Option Char :=
  if e = '"' then some '"'
  else if e = '\\' then some '\\'
  else if e = '/' then some '/'
  else if e = 'n' then some '\n'
  else if e = 'r' then some '\r'
  else if e = 't' then some '\t'
  else if e = 'f' then some '\x0c'
  else if e = 'b' then some '\x08'
  else none

def hex_value (c : Char) : Option Nat :=
  if 48 ≤ c.toNat ∧ c.toNat ≤ 57 then some (c.toNat - 48)
  else if 97 ≤ c.toNat ∧ c.toNat ≤ 102 then some (c.toNat - 87)
  else if 65 ≤ c.toNat ∧ c.toNat ≤ 70 then some (c.toNat - 55)
  else none

def read_hex4 (a b c d : Char) : Option CodeUnit := do
  let w ← hex_value a
  let x ← hex_value b
  let y ← hex_value c
  let z ← hex_value d
  some (4096 * w + 256 * x + 16 * y + z)

/-- The code units of a text, up to the quote that closes it. -/
def read_units : List Char → Option (List CodeUnit × List Char)
  | [] => none
  | c :: rest =>
      if c = '"' then some ([], rest)
      else if c = '\\' then
        match rest with
        | [] => none
        | e :: rest =>
            if e = 'u' then
              match rest with
              | w :: x :: y :: z :: rest =>
                  (read_hex4 w x y z).bind fun u => (read_units rest).map fun r => (u :: r.1, r.2)
              | _ => none
            else
              (unescape_short e).bind fun c =>
                (read_units rest).map fun r => (c.toNat :: r.1, r.2)
      else if c.toNat < 32 then none
      else (read_units rest).map fun r => ((code_point c).units ++ r.1, r.2)

/-- The characters of the units. A surrogate without its other half is no character. -/
def join_units : List CodeUnit → Option (List Char)
  | [] => some []
  | u :: rest =>
      if 0xD800 ≤ u ∧ u < 0xDC00 then
        match rest with
        | [] => none
        | v :: rest =>
            if 0xDC00 ≤ v ∧ v < 0xE000 then
              (join_units rest).map
                (Char.ofNat (0x10000 + 0x400 * (u - 0xD800) + (v - 0xDC00)) :: ·)
            else none
      else if 0xDC00 ≤ u ∧ u < 0xE000 then none
      else (join_units rest).map (Char.ofNat u :: ·)

/-- What stands between an opening quote and the one that closes it. -/
def read_text (input : List Char) : Option (String × List Char) :=
  (read_units input).bind fun r => (join_units r.1).map fun cs => (String.ofList cs, r.2)

def blank (c : Char) : Bool := c == ' ' || c == '\t' || c == '\n' || c == '\r'

def numeric (c : Char) : Bool :=
  decide (48 ≤ c.toNat ∧ c.toNat ≤ 57) || c == '-' || c == '+' || c == '.' || c == 'e' || c == 'E'

def expect (c : Char) (input : List Char) : Option (List Char) :=
  match input.dropWhile blank with
  | [] => none
  | d :: rest => if d = c then some rest else none

def read_value (input : List Char) : Option (Value × List Char) :=
  match input.dropWhile blank with
  | [] => none
  | c :: rest =>
      if c = '"' then (read_text rest).map fun r => (.text r.1, r.2)
      else
        let literal := (c :: rest).takeWhile numeric
        if literal.isEmpty then none
        else some (.number (String.ofList literal), (c :: rest).dropWhile numeric)

def read_member (input : List Char) : Option ((String × Value) × List Char) := do
  let opened ← expect '"' input
  let (key, after_key) ← read_text opened
  let after_colon ← expect ':' after_key
  let (value, rest) ← read_value after_colon
  some ((key, value), rest)

/-- One member or more, and the brace that closes the object. -/
def read_members : (fuel : Nat) → List Char → Option (Members × List Char)
  | 0, _ => none
  | fuel + 1, input => do
      let (m, rest) ← read_member input
      match expect ',' rest with
      | some more => (read_members fuel more).map fun r => (m :: r.1, r.2)
      | none => (expect '\x7d' rest).map fun after => ([m], after)

/-- The members of the object that a text is, if it is one. -/
def loads (input : List Char) : Option Members := do
  let opened ← expect '\x7b' input
  let (members, rest) ←
    match expect '\x7d' opened with
    | some rest => some ([], rest)
    | none => read_members opened.length opened
  if (rest.dropWhile blank).isEmpty then some members else none

/-! ### One character -/

theorem hex_value_digit {n : Nat} (h : n < 16) : hex_value (Nat.digitChar n) = some n := by
  have hall : ∀ m : Fin 16, hex_value (Nat.digitChar m) = some m.val := by decide
  exact hall ⟨n, h⟩

theorem read_hex4_digits {u : Nat} (h : u < 0x10000) :
    read_hex4 (Nat.digitChar (u / 4096 % 16)) (Nat.digitChar (u / 256 % 16))
      (Nat.digitChar (u / 16 % 16)) (Nat.digitChar (u % 16)) = some u := by
  unfold read_hex4
  rw [hex_value_digit (by omega), hex_value_digit (by omega), hex_value_digit (by omega),
    hex_value_digit (by omega)]
  have hsum : 4096 * (u / 4096 % 16) + 256 * (u / 256 % 16) + 16 * (u / 16 % 16) + u % 16 = u := by
    omega
  simp [hsum]

/-- What has been read, with these units before it. -/
def after_units (units : List CodeUnit) (r : Option (List CodeUnit × List Char)) :
    Option (List CodeUnit × List Char) := r.map fun r => (units ++ r.1, r.2)

theorem after_units_append (a b : List CodeUnit) (r : Option (List CodeUnit × List Char)) :
    after_units (a ++ b) r = after_units a (after_units b r) := by
  unfold after_units
  cases r with
  | none => rfl
  | some r => simp

theorem read_units_short {e : Char} (hu : e ≠ 'u') (rest : List Char) :
    read_units ('\\' :: e :: rest) =
      (unescape_short e).bind fun c => after_units [c.toNat] (read_units rest) := by
  rw [read_units.eq_def]
  simp [hu, after_units]

theorem read_units_plain {c : Char} (hquote : c ≠ '"') (hslash : c ≠ '\\') (h : 32 ≤ c.toNat)
    (rest : List Char) :
    read_units (c :: rest) = after_units (code_point c).units (read_units rest) := by
  have hlow : ¬ c.toNat < 32 := by omega
  rw [read_units.eq_def]
  simp [hquote, hslash, hlow, after_units]

theorem read_units_hex {u : CodeUnit} (h : u < 0x10000) (rest : List Char) :
    read_units (escape_unit u ++ rest) = after_units [u] (read_units rest) := by
  unfold escape_unit hex4
  simp only [List.cons_append, List.nil_append]
  rw [read_units, if_neg (by decide), if_pos rfl, if_pos rfl, read_hex4_digits h]
  rfl

theorem read_units_hexes {units : List CodeUnit} (h : ∀ u ∈ units, u < 0x10000)
    (rest : List Char) :
    read_units (units.flatMap escape_unit ++ rest) = after_units units (read_units rest) := by
  induction units with
  | nil =>
    unfold after_units
    cases hrest : read_units rest with
    | none => simp [hrest]
    | some r => simp [hrest]
  | cons u units ih =>
    obtain ⟨hu, hunits⟩ := List.forall_mem_cons.mp h
    rw [List.flatMap_cons, List.append_assoc, read_units_hex hu, ih hunits,
      ← after_units_append]
    rfl

theorem units_of_bmp {c : Char} (h : c.toNat < 0x10000) : (code_point c).units = [c.toNat] := by
  unfold CodePoint.units CodePoint.astral
  have hval : (code_point c).val = c.toNat := rfl
  rw [hval, if_neg]
  simpa using h

/-- The two halves of a character that takes two units. -/
theorem units_of_astral {c : Char} (h : 0x10000 ≤ c.toNat) :
    ∃ high low : Nat, (code_point c).units = [high, low] ∧ (0xD800 ≤ high ∧ high < 0xDC00) ∧
      (0xDC00 ≤ low ∧ low < 0xE000) ∧
      0x10000 + 0x400 * (high - 0xD800) + (low - 0xDC00) = c.toNat := by
  have hlt := toNat_lt c
  refine ⟨0xD800 + (c.toNat - 0x10000) / 0x400, 0xDC00 + (c.toNat - 0x10000) % 0x400, ?_, ?_, ?_,
    ?_⟩
  · unfold CodePoint.units CodePoint.astral
    have hval : (code_point c).val = c.toNat := rfl
    rw [hval, if_pos (decide_eq_true h)]
  · omega
  · omega
  · omega

theorem units_small (c : Char) : ∀ u ∈ (code_point c).units, u < 0x10000 := by
  intro u hu
  by_cases hbmp : c.toNat < 0x10000
  · rw [units_of_bmp hbmp, List.mem_singleton] at hu
    exact hu ▸ hbmp
  · obtain ⟨high, low, hunits, hhigh, hlow, _⟩ := units_of_astral (Nat.le_of_not_lt hbmp)
    rw [hunits] at hu
    rcases List.mem_pair.mp hu with rfl | rfl
    · exact Nat.lt_trans hhigh.2 (by decide)
    · exact Nat.lt_trans hlow.2 (by decide)

/-- The characters with a short escape, each with its letter. -/
def short_escapes : List (Char × Char) :=
  [('"', '"'), ('\\', '\\'), ('\n', 'n'), ('\r', 'r'), ('\t', 't'), ('\x0c', 'f'), ('\x08', 'b')]

theorem mem_short_escapes {c e : Char} (h : short_escape c = some e) :
    (c, e) ∈ short_escapes := by
  unfold short_escape at h
  repeat' split at h
  all_goals cases h
  all_goals
    subst_vars
    decide

/-- The letter of a short escape is read back as its character. -/
theorem unescape_of_escape {c e : Char} (h : short_escape c = some e) :
    e ≠ 'u' ∧ unescape_short e = some c ∧ c.toNat < 0x10000 := by
  have hall : ∀ p ∈ short_escapes,
      p.2 ≠ 'u' ∧ unescape_short p.2 = some p.1 ∧ p.1.toNat < 0x10000 := by decide
  exact hall (c, e) (mem_short_escapes h)

/-- Neither a quote nor a backslash is written as it is. -/
theorem plain_of_no_escape {c : Char} (h : short_escape c = none) : c ≠ '"' ∧ c ≠ '\\' := by
  constructor
  · rintro rfl
    cases h
  · rintro rfl
    cases h

/-- **One character.** What it is written as is read as its units. -/
theorem read_units_escape (c : Char) (rest : List Char) :
    read_units (escape c ++ rest) = after_units (code_point c).units (read_units rest) := by
  unfold escape
  cases hshort : short_escape c with
  | some e =>
    obtain ⟨hu, hback, hbmp⟩ := unescape_of_escape hshort
    simp only [List.cons_append, List.nil_append]
    rw [read_units_short hu, hback, units_of_bmp hbmp]
    rfl
  | none =>
    obtain ⟨hquote, hslash⟩ := plain_of_no_escape hshort
    by_cases hprintable : printable c = true
    · have hrange : 32 ≤ c.toNat ∧ c.toNat ≤ 126 := by simpa [printable] using hprintable
      rw [if_pos hprintable]
      exact read_units_plain hquote hslash hrange.1 rest
    · rw [if_neg hprintable]
      exact read_units_hexes (units_small c) rest

theorem join_units_units (c : Char) (rest : List CodeUnit) :
    join_units ((code_point c).units ++ rest) = (join_units rest).map (c :: ·) := by
  by_cases hbmp : c.toNat < 0x10000
  · -- one unit, which is no half of a pair
    have hvalid : c.toNat < 0xD800 ∨ 0xE000 ≤ c.toNat := by
      rcases c.valid with h | h
      · exact .inl h
      · exact .inr h.1
    rw [units_of_bmp hbmp, List.singleton_append, join_units.eq_def]
    dsimp only
    have hhigh : ¬ (0xD800 ≤ c.toNat ∧ c.toNat < 0xDC00) := by omega
    have hlow : ¬ (0xDC00 ≤ c.toNat ∧ c.toNat < 0xE000) := by omega
    rw [if_neg hhigh, if_neg hlow, Char.ofNat_toNat]
  · obtain ⟨high, low, hunits, hhigh, hlow, hsum⟩ := units_of_astral (Nat.le_of_not_lt hbmp)
    rw [hunits, List.cons_append, List.singleton_append, join_units.eq_def]
    dsimp only
    rw [if_pos hhigh, if_pos hlow, hsum, Char.ofNat_toNat]

/-- **A text.** What is written for it is read back, and the reader stops behind the quote. -/
theorem read_text_quote (s : String) (rest : List Char) :
    read_text (s.toList.flatMap escape ++ '"' :: rest) = some (s, rest) := by
  have hunits : ∀ cs : List Char, read_units (cs.flatMap escape ++ '"' :: rest) =
      some (utf16 (cs.map code_point), rest) := by
    intro cs
    induction cs with
    | nil =>
      rw [List.flatMap_nil, List.nil_append, read_units.eq_def]
      simp
    | cons c cs ih =>
      rw [List.flatMap_cons, List.append_assoc, read_units_escape, ih]
      simp [after_units]
  have hjoin : ∀ cs : List Char, join_units (utf16 (cs.map code_point)) = some cs := by
    intro cs
    induction cs with
    | nil => rfl
    | cons c cs ih =>
      rw [List.map_cons, utf16_cons, join_units_units, ih]
      rfl
  unfold read_text
  rw [hunits, Option.bind_some, hjoin, Option.map_some, String.ofList_toList]

/-! ### Objects -/

/-- What may stand for a number. -/
def Value.WellFormed : Value → Prop
  | .text _ => True
  | .number literal => literal.toList ≠ [] ∧ ∀ c ∈ literal.toList, numeric c = true

/-- The next character is read where no blank stands before it. -/
theorem expect_cons {c : Char} (h : blank c = false) (rest : List Char) :
    expect c (c :: rest) = some rest := by
  unfold expect
  rw [List.dropWhile_cons_of_neg (by simp [h])]
  simp

theorem expect_ne {c d : Char} (h : blank d = false) (hne : d ≠ c) (rest : List Char) :
    expect c (d :: rest) = none := by
  unfold expect
  rw [List.dropWhile_cons_of_neg (by simp [h])]
  simp [hne]

theorem numeric_not_blank {c : Char} (h : numeric c = true) : blank c = false ∧ c ≠ '"' := by
  constructor
  · by_contra hblank
    rw [Bool.not_eq_false] at hblank
    simp only [blank, Bool.or_eq_true, beq_iff_eq] at hblank
    rcases hblank with ((rfl | rfl) | rfl) | rfl <;> exact absurd h (by decide)
  · rintro rfl
    exact absurd h (by decide)

theorem read_value_write {v : Value} (h : v.WellFormed) {d : Char} (hd : numeric d = false)
    (rest : List Char) :
    read_value (' ' :: (v.write ++ d :: rest)) = some (v, d :: rest) := by
  cases v with
  | text s =>
    unfold read_value Value.write quote
    have hhead : (' ' :: ('"' :: s.toList.flatMap escape ++ ['"'] ++ d :: rest)).dropWhile blank =
        '"' :: (s.toList.flatMap escape ++ '"' :: (d :: rest)) := by
      simp [List.dropWhile, blank]
    rw [hhead]
    dsimp only
    rw [if_pos rfl, read_text_quote]
    rfl
  | number literal =>
    obtain ⟨hne, hall⟩ := h
    obtain ⟨c, cs, hcs⟩ := List.exists_cons_of_ne_nil hne
    rw [hcs] at hall
    obtain ⟨hblank, hquote⟩ := numeric_not_blank (hall c List.mem_cons_self)
    unfold read_value Value.write
    have hhead : (' ' :: (literal.toList ++ d :: rest)).dropWhile blank =
        c :: (cs ++ d :: rest) := by
      rw [hcs]
      simp [List.dropWhile, hblank, show blank ' ' = true from rfl]
    -- the number goes up to `d`, which no number has
    have htake : (c :: (cs ++ d :: rest)).takeWhile numeric = c :: cs := by
      rw [← List.cons_append, List.takeWhile_append_of_pos hall, List.takeWhile_cons_of_neg]
      · simp
      · simp [hd]
    have hdrop : (c :: (cs ++ d :: rest)).dropWhile numeric = d :: rest := by
      rw [← List.cons_append, List.dropWhile_append_of_pos hall, List.dropWhile_cons_of_neg]
      simp [hd]
    rw [hhead]
    dsimp only
    rw [if_neg hquote, htake, hdrop, ← hcs, String.ofList_toList]
    simp [hcs]

theorem read_member_write {m : String × Value} (h : m.2.WellFormed) {d : Char}
    (hd : numeric d = false) {input rest : List Char}
    (hinput : input.dropWhile blank = write_member m ++ d :: rest) :
    read_member input = some (m, d :: rest) := by
  obtain ⟨key, v⟩ := m
  have hopen : expect '"' input =
      some (key.toList.flatMap escape ++ '"' :: ':' :: ' ' :: (v.write ++ d :: rest)) := by
    unfold expect
    rw [hinput]
    simp [write_member, quote]
  unfold read_member
  rw [hopen]
  simp only [Option.bind_eq_bind, Option.bind_some, read_text_quote]
  rw [expect_cons (by decide)]
  simp only [Option.bind_some]
  rw [read_value_write h hd]
  rfl

theorem write_member_head (m : String × Value) (rest : List Char) :
    (write_member m ++ rest).dropWhile blank = write_member m ++ rest := by
  unfold write_member quote
  rw [List.cons_append, List.cons_append, List.cons_append]
  exact List.dropWhile_cons_of_neg (by decide)

/-- **The members.** As many turns as there are members are enough. -/
theorem read_members_write {members : Members} (hne : members ≠ [])
    (h : ∀ m ∈ members, m.2.WellFormed) {fuel : Nat} (hfuel : members.length ≤ fuel)
    {input rest : List Char}
    (hinput : input.dropWhile blank = write_members members ++ '\x7d' :: rest) :
    read_members fuel input = some (members, rest) := by
  induction members generalizing fuel input with
  | nil => exact absurd rfl hne
  | cons m members ih =>
    cases fuel with
    | zero => exact absurd hfuel (by simp)
    | succ fuel =>
      obtain ⟨hm, hmembers⟩ := List.forall_mem_cons.mp h
      cases members with
      | nil =>
        have hread := read_member_write hm (d := '\x7d') (by decide) hinput
        unfold read_members
        simp only [hread, Option.bind_eq_bind, Option.bind_some]
        rw [expect_ne (by decide) (by decide), expect_cons (by decide)]
        rfl
      | cons m' members =>
        have hcomma : input.dropWhile blank =
            write_member m ++ ',' :: ' ' :: (write_members (m' :: members) ++ '\x7d' :: rest) := by
          rw [hinput]
          simp [write_members]
        have hread := read_member_write hm (d := ',') (by decide) hcomma
        -- the rest of the members, behind the comma and the blank
        have hskip : (' ' :: (write_members (m' :: members) ++ '\x7d' :: rest)).dropWhile blank =
            write_members (m' :: members) ++ '\x7d' :: rest := by
          rw [List.dropWhile_cons_of_pos (by decide)]
          cases members with
          | nil => exact write_member_head m' _
          | cons m'' members =>
            have hhead := write_member_head m'
              (',' :: ' ' :: write_members (m'' :: members) ++ '\x7d' :: rest)
            simpa [write_members] using hhead
        have hrest := ih (by simp) hmembers (Nat.le_of_succ_le_succ hfuel) hskip
        unfold read_members
        simp only [hread, Option.bind_eq_bind, Option.bind_some]
        rw [expect_cons (by decide)]
        dsimp only
        rw [hrest]
        rfl

theorem length_le_write_members (members : Members) :
    members.length ≤ (write_members members).length := by
  induction members with
  | nil => simp
  | cons m members ih =>
    cases members with
    | nil => simp [write_members, write_member, quote]
    | cons m' members =>
      simp only [write_members, List.length_append, List.length_cons] at ih ⊢
      omega

/-- An object that is not empty begins with the quote of its first key. -/
theorem write_members_head {members : Members} (hne : members ≠ []) :
    ∃ rest, write_members members = '"' :: rest := by
  cases members with
  | nil => exact absurd rfl hne
  | cons m members =>
    cases members with
    | nil => exact ⟨_, rfl⟩
    | cons m' members => exact ⟨_, rfl⟩

/-- **Round trip.** What is dumped is loaded again. -/
theorem loads_dumps {members : Members} (h : ∀ m ∈ members, m.2.WellFormed) :
    loads (dumps members) = some members := by
  have hopen : expect '\x7b' (dumps members) = some (write_members members ++ ['\x7d']) :=
    expect_cons (by decide) _
  unfold loads
  simp only [hopen, Option.bind_eq_bind, Option.bind_some]
  by_cases hne : members = []
  · subst hne
    rfl
  · obtain ⟨first, hfirst⟩ := write_members_head hne
    have hclosed : expect '\x7d' (write_members members ++ ['\x7d']) = none := by
      rw [hfirst, List.cons_append]
      exact expect_ne (by decide) (by decide) _
    have hblank : (write_members members ++ ['\x7d']).dropWhile blank =
        write_members members ++ ['\x7d'] := by
      rw [hfirst, List.cons_append]
      exact List.dropWhile_cons_of_neg (by decide)
    have hfuel : members.length ≤ (write_members members ++ ['\x7d']).length := by
      have hlength := length_le_write_members members
      simp only [List.length_append]
      omega
    rw [hclosed]
    dsimp only
    rw [read_members_write hne h hfuel hblank]
    rfl

/-! ### ASCII -/

theorem printable_digit {n : Nat} (h : n < 16) : printable (Nat.digitChar n) = true := by
  have hall : ∀ m : Fin 16, printable (Nat.digitChar m) = true := by decide
  exact hall ⟨n, h⟩

theorem printable_escape_unit (u : CodeUnit) : ∀ c ∈ escape_unit u, printable c = true := by
  intro c hc
  unfold escape_unit hex4 at hc
  simp only [List.mem_cons, List.not_mem_nil, or_false] at hc
  rcases hc with rfl | rfl | rfl | rfl | rfl | rfl
  · decide
  · decide
  · exact printable_digit (Nat.mod_lt _ (by decide))
  · exact printable_digit (Nat.mod_lt _ (by decide))
  · exact printable_digit (Nat.mod_lt _ (by decide))
  · exact printable_digit (Nat.mod_lt _ (by decide))

theorem printable_short {c e : Char} (h : short_escape c = some e) : printable e = true := by
  have hall : ∀ p ∈ short_escapes, printable p.2 = true := by decide
  exact hall (c, e) (mem_short_escapes h)

theorem printable_escape (c : Char) : ∀ d ∈ escape c, printable d = true := by
  intro d hd
  unfold escape at hd
  cases hshort : short_escape c with
  | some e =>
    rw [hshort] at hd
    rcases List.mem_pair.mp hd with rfl | rfl
    · decide
    · exact printable_short hshort
  | none =>
    rw [hshort] at hd
    by_cases hprintable : printable c = true
    · simp only [if_pos hprintable, List.mem_singleton] at hd
      rw [hd]
      exact hprintable
    · simp only [if_neg hprintable, List.mem_flatMap] at hd
      obtain ⟨u, _, hd⟩ := hd
      exact printable_escape_unit u d hd

theorem printable_quote (s : String) : ∀ c ∈ quote s, printable c = true := by
  intro c hc
  unfold quote at hc
  simp only [List.cons_append, List.mem_cons, List.mem_append, List.mem_flatMap,
    List.not_mem_nil, or_false] at hc
  rcases hc with rfl | ⟨d, _, hd⟩ | rfl
  · decide
  · exact printable_escape d c hd
  · decide

theorem printable_numeric {c : Char} (h : numeric c = true) : printable c = true := by
  simp only [numeric, Bool.or_eq_true, decide_eq_true_eq, beq_iff_eq] at h
  rcases h with ((((hdigit | rfl) | rfl) | rfl) | rfl) | rfl
  · simp only [printable, decide_eq_true_eq]
    omega
  all_goals decide

theorem printable_member {m : String × Value} (h : m.2.WellFormed) :
    ∀ c ∈ write_member m, printable c = true := by
  obtain ⟨key, v⟩ := m
  intro c hc
  simp only [write_member, List.mem_append, List.mem_cons] at hc
  rcases hc with hkey | rfl | rfl | hvalue
  · exact printable_quote key c hkey
  · decide
  · decide
  · cases v with
    | text s => exact printable_quote s c hvalue
    | number literal => exact printable_numeric (h.2 c hvalue)

/-- **One line.** What is written is printable ASCII: it has no line break in it. -/
theorem printable_dumps {members : Members} (h : ∀ m ∈ members, m.2.WellFormed) :
    ∀ c ∈ dumps members, printable c = true := by
  have hmembers : ∀ c ∈ write_members members, printable c = true := by
    induction members with
    | nil =>
      intro c hc
      cases hc
    | cons m members ih =>
      obtain ⟨hm, hrest⟩ := List.forall_mem_cons.mp h
      cases members with
      | nil => exact printable_member hm
      | cons m' members =>
        intro c hc
        simp only [write_members, List.mem_append, List.mem_cons] at hc
        rcases hc with hfirst | rfl | rfl | hlater
        · exact printable_member hm c hfirst
        · decide
        · decide
        · exact ih hrest c hlater
  intro c hc
  simp only [dumps, List.cons_append, List.mem_cons, List.mem_append, List.not_mem_nil,
    or_false] at hc
  rcases hc with rfl | hin | rfl
  · decide
  · exact hmembers c hin
  · decide

end Json

end Framework
