import FunctionMeter.Json.Decode

/-!
# Positions and ranges

A position is a line and a column, both counted from zero; columns count UTF-16 code units. Both
are words of 32 bits, as on the wire. Positions are ordered by line first.
-/

namespace FunctionMeter

structure Position where
  line : UInt32
  character : UInt32
  deriving DecidableEq, Repr, Inhabited

namespace Position

/-- Document order. -/
def le (p q : Position) : Bool := p.line < q.line || (p.line == q.line && p.character ≤ q.character)

/-- The later of two positions. -/
def max (p q : Position) : Position := if le p q then q else p

def fieldNames : List String := ["line", "character"]

def ofJson? (j : Json) : Option Position := do
  let fields ← j.fields? fieldNames
  let line ← fields.required "line" Json.word?
  let character ← fields.required "character" Json.word?
  some ⟨line, character⟩

def toJson (p : Position) : Json :=
  .record [("line", .ofWord p.line), ("character", .ofWord p.character)]

end Position

/-- A stretch of text. Nothing keeps its end behind its start: ranges come from outside. -/
structure Range where
  start : Position
  stop : Position
  deriving DecidableEq, Repr, Inhabited

namespace Range

def fieldNames : List String := ["start", "end"]

def ofJson? (j : Json) : Option Range := do
  let fields ← j.fields? fieldNames
  let start ← fields.required "start" Position.ofJson?
  let stop ← fields.required "end" Position.ofJson?
  some ⟨start, stop⟩

def toJson (r : Range) : Json := .record [("start", r.start.toJson), ("end", r.stop.toJson)]

/-- The text by which a range is named: `line:column-line:column`. -/
def label (r : Range) : String :=
  r.start.line.toNat.repr ++ ":" ++ r.start.character.toNat.repr ++ "-" ++
    r.stop.line.toNat.repr ++ ":" ++ r.stop.character.toNat.repr

end Range

end FunctionMeter
