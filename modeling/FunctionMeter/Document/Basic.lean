import FunctionMeter.Position
import FunctionMeter.Text.Basic
import FunctionMeter.Uri.Basic

/-!
# Documents

A document is a snapshot of a text under a name and a version. Its lines are derived from its text
and never carry their line endings.

An editor keeps a document in step by sending changes: a whole new text, or a replacement for a
range of the text as it stands after the changes before. A range is applied only if both of its ends
lie in the text and are in order; any other range is passed over, and the changes behind it still
count.
-/

namespace FunctionMeter

structure Document where
  uri : Uri
  version : Int32
  text : String
  deriving DecidableEq, Repr, Inhabited

namespace Document

/-- The lines of the text, without line feeds and without a carriage return before them. -/
def lines (d : Document) : List String := (Text.lines d.text.toList).map String.ofList

def lineCount (d : Document) : Nat := d.lines.length

def line? (d : Document) (index : UInt32) : Option String := d.lines[index.toNat]?

/-- The extension of the document's name, by which its language is recognised. -/
def extension (d : Document) : Option String := d.uri.extension

end Document

/-! ## Edits -/

namespace Text

/-- The byte offset of a column of a line, counted from the first of the given lines. The carriage
return at the end of a line is not part of its content, so no column lies behind it. -/
def offsetInLines? : List (List Char) → Nat → Nat → Option Nat
  | [], _, _ => none
  | line :: _, 0, column => byteOfColumn? (chomp line) column
  | line :: rest, n + 1, column =>
    (offsetInLines? rest n column).map (byteCount line + 1 + ·)

/-- The byte offset of a position in a text. -/
def offset? (cs : List Char) (p : Position) : Option Nat :=
  offsetInLines? (rawLines cs) p.line.toNat p.character.toNat

/-- Replaces the bytes between two offsets, if both are character boundaries in order. -/
def replaceBytes? (cs : List Char) (start stop : Nat) (new : List Char) : Option (List Char) :=
  if start ≤ stop then
    match splitAtByte? cs start, splitAtByte? cs stop with
    | some (before, _), some (_, after) => some (before ++ new ++ after)
    | _, _ => none
  else none

/-- The text with a range replaced; nothing if the range does not lie in the text. -/
def replaceRange? (cs : List Char) (range : Range) (new : List Char) : Option (List Char) :=
  match offset? cs range.start, offset? cs range.stop with
  | some start, some stop => replaceBytes? cs start stop new
  | _, _ => none

end Text

/-- One change of a text. Without a range it replaces everything. -/
structure Change where
  range : Option Range
  text : String
  deriving DecidableEq, Repr, Inhabited

namespace Change

def applyTo (cs : List Char) (change : Change) : List Char :=
  match change.range with
  | some range => (Text.replaceRange? cs range change.text.toList).getD cs
  | none => change.text.toList

def fieldNames : List String := ["range", "rangeLength", "text"]

/-- Reads a change; the length of the range that editors may add is checked and dropped. -/
def ofJson? (j : Json) : Option Change := do
  let fields ← j.fields? fieldNames
  let range ← fields.optional "range" Range.ofJson?
  let _ ← fields.optional "rangeLength" Json.word?
  let text ← fields.required "text" Json.string?
  some ⟨range, text⟩

end Change

namespace Document

/-- The document after a list of changes, each made to the result of those before. The version is
taken over even if no change applies. -/
def apply (d : Document) (changes : List Change) (version : Int32) : Document :=
  { d with
    version
    text := String.ofList (changes.foldl Change.applyTo d.text.toList) }

end Document

end FunctionMeter
