import CounselReady.Core.Logging

/-! # What the Request Log Tells

    The log is read line by line (`read_log`). Whatever the requests hold, it
    has one entry for each, in order, and nobody else's: a header cannot close
    its quote, end its line or add a field. And two logs that are read alike are
    alike, so nothing but the entries gets into them.
-/

namespace CounselReady

open Framework

variable {Token : Type} {srv : Server Token}

/-! ### Reading the log -/

/-- What one line says. -/
structure LogEntry where
  request_id : String
  method : String
  route : String
  status : Nat
  duration_ms : String
  deriving DecidableEq

def text_member (members : Json.Members) (key : String) : Option String :=
  match members.lookup key with
  | some (.text s) => some s
  | _ => none

def number_member (members : Json.Members) (key : String) : Option String :=
  match members.lookup key with
  | some (.number literal) => some literal
  | _ => none

def read_nat (literal : String) : Option Nat :=
  if literal.toList.all Char.isDigit then some (Nat.ofDigitChars 10 literal.toList 0) else none

def read_entry (members : Json.Members) : Option LogEntry := do
  let request_id ← text_member members "request_id"
  let method ← text_member members "method"
  let route ← text_member members "route"
  let status ← (number_member members "status").bind read_nat
  let duration_ms ← number_member members "duration_ms"
  some ⟨request_id, method, route, status, duration_ms⟩

def read_lines : List (List Char) → Option (List LogEntry)
  | [] => some []
  | line :: lines =>
      ((Json.loads line).bind read_entry).bind fun e => (read_lines lines).map (e :: ·)

/-- The entries of a log whose last line has been ended. -/
def read_log (stream : List Char) : Option (List LogEntry) :=
  read_lines (stream.splitOn '\n').dropLast

/-! ### What an entry tells -/

/-- The id of a request: the one it brings, if that is not empty, or the one drawn for it. -/
inductive Named (x : HttpExchange Token) : String → Prop where
  | brought {id : String} (header : x.request.headers.get request_id_header = some id)
      (given : id ≠ "") : Named x id
  | drawn (header : ∀ id, x.request.headers.get request_id_header = some id → id = "") :
      Named x (Uuid.hex x.drawn)

/-- The entry is about this exchange. -/
structure Tells (srv : Server Token) (p : HttpExchange Token × Committed) (e : LogEntry) :
    Prop where
  named : Named p.1 e.request_id
  method : e.method = p.1.request.method
  route : e.route = (p.1.downstream srv p.2).1.route.getD "__unmatched__"
  duration : e.duration_ms = float_repr p.1.duration
  /-- an exception is logged as a 500, and goes through -/
  failed : (p.1.downstream srv p.2).1.response = none →
    e.status = 500 ∧ (p.1.dispatched srv p.2).2 = none
  /-- an answer is logged with its status, and carries the id -/
  answered : ∀ response, (p.1.downstream srv p.2).1.response = some response →
    e.status = response.status ∧ ∃ sent, (p.1.dispatched srv p.2).2 = some sent ∧
      sent.status = response.status ∧ sent.headers.get "x-request-id" = some e.request_id

/-! ### One line -/

/-- The members of a line, by name. -/
def LogEntry.members (e : LogEntry) : Json.Members :=
  [("duration_ms", .number e.duration_ms), ("event", .text "http_request"),
    ("level", .text "INFO"), ("logger", .text "counselready.request"),
    ("method", .text e.method), ("request_id", .text e.request_id), ("route", .text e.route),
    ("status", .number (Nat.repr e.status))]

def LogEntry.line (e : LogEntry) : List Char := Json.dumps e.members

/-- What is logged of an exchange. -/
def HttpExchange.entry (srv : Server Token) (p : HttpExchange Token × Committed) : LogEntry where
  request_id := CounselReady.request_id p.1.drawn p.1.request
  method := p.1.request.method
  route := route_template (p.1.downstream srv p.2).1
  status := match (p.1.downstream srv p.2).1.response with
    | none => 500
    | some response => response.status
  duration_ms := float_repr p.1.duration

/-- The keys come in order. -/
theorem format_log_record (request : HttpRequest) (id route : String) (status duration : Nat) :
    (log_record request id route status duration).format =
      LogEntry.line ⟨id, request.method, route, status, float_repr duration⟩ := by
  unfold LogEntry.line LogRecord.format log_record
  refine congrArg Json.dumps ?_
  simp [update_payload, LogEntry.members, Handler.order_by]

theorem dispatched_line (p : HttpExchange Token × Committed) :
    (p.1.dispatched srv p.2).1.format = (HttpExchange.entry srv p).line := by
  unfold HttpExchange.dispatched dispatch HttpExchange.entry
  cases (p.1.downstream srv p.2).1.response with
  | none => exact format_log_record _ _ _ _ _
  | some response => exact format_log_record _ _ _ _ _

theorem numeric_digit {c : Char} (h : c.isDigit = true) : Json.numeric c = true := by
  have hrange : 48 ≤ c.toNat ∧ c.toNat ≤ 57 := by
    simpa [Char.isDigit, UInt32.le_iff_toNat_le] using h
  simp [Json.numeric, hrange]

theorem numeric_repr (n : Nat) : (Json.Value.number (Nat.repr n)).WellFormed := by
  refine ⟨?_, fun c hc => ?_⟩
  · rw [Nat.toList_repr]
    exact Nat.toDigits_ne_nil
  · rw [Nat.toList_repr] at hc
    exact numeric_digit (Nat.isDigit_of_mem_toDigits (by decide) (by decide) hc)

theorem numeric_float (n : Nat) : (Json.Value.number (float_repr n)).WellFormed := by
  have hdigit : ∀ m, Json.numeric (Nat.digitChar (m % 10)) = true := by
    have hall : ∀ m : Fin 10, Json.numeric (Nat.digitChar m) = true := by decide
    exact fun m => hall ⟨m % 10, Nat.mod_lt _ (by decide)⟩
  unfold float_repr
  refine ⟨by simp, fun c hc => ?_⟩
  rw [String.toList_ofList] at hc
  -- the digits before the point, the point, and those behind it
  rcases List.mem_append.mp hc with hwhole | hrest
  · exact numeric_digit (Nat.isDigit_of_mem_toDigits (by decide) (by decide) hwhole)
  rcases List.mem_cons.mp hrest with rfl | hfraction
  · decide
  · obtain ⟨d, hd, rfl⟩ := List.mem_map.mp hfraction
    have hmem : d ∈ [n / 100 % 10, n / 10 % 10, n % 10] := by
      split at hd
      · exact List.mem_of_mem_take hd
      split at hd
      · exact List.mem_of_mem_take hd
      · exact hd
    simp only [List.mem_cons, List.not_mem_nil, or_false] at hmem
    rcases hmem with rfl | rfl | rfl
    · exact hdigit _
    · exact hdigit _
    · exact hdigit _

/-- The duration is one that has been measured. -/
def LogEntry.Measured (e : LogEntry) : Prop := ∃ duration, e.duration_ms = float_repr duration

theorem members_well_formed {e : LogEntry} (h : e.Measured) :
    ∀ m ∈ e.members, m.2.WellFormed := by
  obtain ⟨duration, hduration⟩ := h
  intro m hm
  unfold LogEntry.members at hm
  simp only [List.mem_cons, List.not_mem_nil, or_false] at hm
  rcases hm with rfl | rfl | rfl | rfl | rfl | rfl | rfl | rfl
  · show (Json.Value.number e.duration_ms).WellFormed
    rw [hduration]
    exact numeric_float duration
  · trivial
  · trivial
  · trivial
  · trivial
  · trivial
  · trivial
  · exact numeric_repr e.status

theorem read_nat_repr (n : Nat) : read_nat (Nat.repr n) = some n := by
  have hdigits : (Nat.repr n).toList.all Char.isDigit = true := by
    rw [Nat.toList_repr, List.all_eq_true]
    exact fun c hc => Nat.isDigit_of_mem_toDigits (by decide) (by decide) hc
  unfold read_nat
  rw [if_pos hdigits, Nat.toList_repr, Nat.ofDigitChars_ten_toDigits]

theorem read_entry_members (e : LogEntry) : read_entry e.members = some e := by
  simp [read_entry, text_member, number_member, LogEntry.members, List.lookup_cons, read_nat_repr]

theorem read_line {e : LogEntry} (h : e.Measured) :
    (Json.loads e.line).bind read_entry = some e := by
  unfold LogEntry.line
  rw [Json.loads_dumps (members_well_formed h), Option.bind_some, read_entry_members]

/-- No line ends before its end. -/
theorem line_printable {e : LogEntry} (h : e.Measured) :
    ∀ c ∈ e.line, Json.printable c = true :=
  Json.printable_dumps (members_well_formed h)

/-! ### The stream -/

def render (entries : List LogEntry) : List Char := entries.flatMap fun e => e.line ++ ['\n']

theorem read_log_render {entries : List LogEntry} (h : ∀ e ∈ entries, e.Measured) :
    read_log (render entries) = some entries := by
  induction entries with
  | nil => rfl
  | cons e entries ih =>
    obtain ⟨he, hentries⟩ := List.forall_mem_cons.mp h
    -- the line has no break of its own, so the first one ends it
    have hbreak : '\n' ∉ e.line := fun hmem => absurd (line_printable he '\n' hmem) (by decide)
    have hsplit : (render (e :: entries)).splitOn '\n' =
        e.line :: (render entries).splitOn '\n' := by
      unfold render
      rw [List.flatMap_cons, List.append_assoc, List.singleton_append]
      exact List.splitOn_append_cons_self_of_not_mem hbreak _
    have hrest := ih hentries
    unfold read_log at hrest ⊢
    rw [hsplit, List.dropLast_cons_of_ne_nil (List.splitOn_ne_nil _ _), read_lines, read_line he,
      hrest]
    rfl

theorem request_log_eq (run : List (HttpExchange Token × Committed)) :
    request_log srv run = render (run.map (HttpExchange.entry srv)) := by
  unfold request_log render
  rw [List.flatMap_map]
  refine List.flatMap_congr fun p _ => ?_
  rw [dispatched_line]

theorem read_request_log (run : List (HttpExchange Token × Committed)) :
    read_log (request_log srv run) = some (run.map (HttpExchange.entry srv)) := by
  rw [request_log_eq]
  refine read_log_render fun e he => ?_
  obtain ⟨p, _, rfl⟩ := List.mem_map.mp he
  exact ⟨p.1.duration, rfl⟩

/-! ### The entries -/

theorem Headers.get_set (key value : String) (headers : Headers) :
    (Headers.set key value headers).get key = some value := by
  induction headers with
  | nil => simp [Headers.set, Headers.get]
  | cons h rest ih =>
    unfold Headers.set
    by_cases hkey : (h.1 == key) = true
    · rw [if_pos hkey]
      simp [Headers.get]
    · rw [if_neg hkey]
      unfold Headers.get at ih ⊢
      have hskip : (h :: Headers.set key value rest).find? (fun h => h.1 == key) =
          (Headers.set key value rest).find? (fun h => h.1 == key) := List.find?_cons_of_neg hkey
      rw [hskip, ih]

theorem named_request_id (x : HttpExchange Token) : Named x (request_id x.drawn x.request) := by
  unfold request_id
  cases hheader : x.request.headers.get request_id_header with
  | none =>
    refine .drawn fun id hid => ?_
    rw [hheader] at hid
    cases hid
  | some id =>
    by_cases hempty : id = ""
    · -- an empty header counts as none
      subst hempty
      refine .drawn fun id hid => ?_
      rw [hheader] at hid
      exact (Option.some.inj hid).symm
    · have hgiven : or_else (some id) (Uuid.hex x.drawn) = id := by
        simp [or_else, hempty]
      rw [hgiven]
      exact .brought hheader hempty

theorem entry_tells (p : HttpExchange Token × Committed) :
    Tells srv p (HttpExchange.entry srv p) where
  named := named_request_id p.1
  method := rfl
  route := rfl
  duration := rfl
  failed := by
    intro h
    unfold HttpExchange.entry HttpExchange.dispatched dispatch
    rw [h]
    exact ⟨rfl, rfl⟩
  answered := by
    intro response h
    unfold HttpExchange.entry HttpExchange.dispatched dispatch
    rw [h]
    exact ⟨rfl, _, rfl, rfl, Headers.get_set _ _ _⟩

/-- **The log tells the run, and nothing else.** For every run of the application behind the
    middleware, an exception leaving it only before an answer has begun: the log reads back
    as one entry for each exchange, in order, whatever is in the headers; it is printable
    ASCII but for the line breaks; and any run of any server that is told by the same
    entries has the same log. -/
theorem log_tells_the_run (srv : Server Token) (exchanges : List (HttpExchange Token))
    (w : Committed) :
    (∃ entries, read_log (request_log srv (served srv exchanges w)) = some entries ∧
      List.Forall₂ (Tells srv) (served srv exchanges w) entries) ∧
    (∀ c ∈ request_log srv (served srv exchanges w), Json.printable c = true ∨ c = '\n') ∧
    ∀ (srv' : Server Token) (exchanges' : List (HttpExchange Token)) (w' : Committed),
      read_log (request_log srv' (served srv' exchanges' w')) =
        read_log (request_log srv (served srv exchanges w)) →
      request_log srv' (served srv' exchanges' w') = request_log srv (served srv exchanges w) := by
  refine ⟨⟨_, read_request_log _, ?_⟩, fun c hc => ?_, fun srv' exchanges' w' hsame => ?_⟩
  · exact List.forall₂_map_right_iff.mpr (List.forall₂_same.mpr fun p _ => entry_tells p)
  · rw [request_log_eq] at hc
    obtain ⟨e, he, hin⟩ := List.mem_flatMap.mp hc
    obtain ⟨p, _, rfl⟩ := List.mem_map.mp he
    rcases List.mem_append.mp hin with hline | hbreak
    · exact .inl (line_printable ⟨p.1.duration, rfl⟩ c hline)
    · exact .inr (List.mem_singleton.mp hbreak)
  · rw [read_request_log, read_request_log, Option.some.injEq] at hsame
    rw [request_log_eq, request_log_eq, hsame]

end CounselReady
