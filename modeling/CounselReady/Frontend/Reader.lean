import CounselReady.Api.Cases
import CounselReady.Framework.Utf16

/-! # The Reader

    `segments` of the page view: the runs of a page, highlighted and not. It
    works on a JavaScript string, a sequence of UTF-16 code units, with the
    offsets the server sends.
-/

namespace CounselReady

open Framework

/-- A run of the page. -/
structure Segment where
  text : List CodeUnit
  cited : Bool
  deriving DecidableEq

/-- The runs from `cursor` on. The offsets are clamped, so that no text is dropped. -/
def segments_from (text : List CodeUnit) : (cursor : Int) → List PassageResponse → List Segment
  | cursor, [] =>
      if cursor < text.length then [⟨slice text cursor.toNat text.length, false⟩] else []
  | cursor, passage :: rest =>
      -- what overlaps the passage before is marked already
      let start := max cursor (min passage.start_offset text.length)
      let stop := max start (min passage.end_offset text.length)
      (if cursor < start then [⟨slice text cursor.toNat start.toNat, false⟩] else []) ++
        (if start < stop then [⟨slice text start.toNat stop.toNat, true⟩] else []) ++
          segments_from text (max cursor stop) rest

def segments (text : List CodeUnit) (passages : List PassageResponse) : List Segment :=
  segments_from text 0 passages

/-- The text of the runs that are marked. -/
def highlighted (runs : List Segment) : List CodeUnit :=
  (runs.filter Segment.cited).flatMap Segment.text

/-- The code points of a string of the server. -/
def code_points (s : String) : List CodePoint :=
  s.toList.map (fun c => ⟨c.toNat, by
    rcases c.valid with h | h
    · exact Nat.lt_trans h (by decide)
    · exact h.2⟩)

/-- The string as the browser has it. -/
def js_string (s : String) : List CodeUnit := utf16 (code_points s)

end CounselReady
