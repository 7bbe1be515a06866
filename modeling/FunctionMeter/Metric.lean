import FunctionMeter.Loc

/-!
# Metrics

One metric for each distinct signature range among the function-like symbols of a forest. The
metrics stand in the order in which their signatures first occur, and each describes the last symbol
with its signature.
-/

namespace FunctionMeter

/-- The measured size of one function. -/
structure Metric where
  name : String
  range : Range
  signaturePosition : Position
  loc : UInt32
  deriving DecidableEq, Repr, Inhabited

namespace Metric

def ofSymbol (lines : List String) (s : Symbol) : Metric :=
  { name := s.name, range := s.fullRange, signaturePosition := s.signatureRange.stop
    loc := s.loc lines }

/-- Puts a value under a key: in place if the key is there, else at the end. -/
def put (key : Range) (metric : Metric) : List (Range × Metric) → List (Range × Metric)
  | [] => [(key, metric)]
  | (k, m) :: rest => if k = key then (k, metric) :: rest else (k, m) :: put key metric rest

def record (lines : List String) (table : List (Range × Metric)) (s : Symbol) :
    List (Range × Metric) :=
  if s.isFunctionLike then put s.signatureRange (ofSymbol lines s) table else table

/-- Measures every function-like symbol of a forest. -/
def ofSymbols (lines : List String) (symbols : List Symbol) : List Metric :=
  (((Symbol.preorderAll symbols).foldl (record lines) []).map (·.2))

def fieldNames : List String := ["name", "range", "signature_position", "loc"]

def ofJson? (j : Json) : Option Metric := do
  let fields ← j.fields? fieldNames
  let name ← fields.required "name" Json.string?
  let range ← fields.required "range" Range.ofJson?
  let position ← fields.required "signature_position" Position.ofJson?
  let loc ← fields.required "loc" Json.word?
  some ⟨name, range, position, loc⟩

def toJson (m : Metric) : Json :=
  .record [("name", .str m.name), ("range", m.range.toJson),
    ("signature_position", m.signaturePosition.toJson), ("loc", .ofWord m.loc)]

end Metric

end FunctionMeter
