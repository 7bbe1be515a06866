import FunctionMeter.Category
import FunctionMeter.Metric

/-!
# Reports

What is shown of measured files: the functions at or above a minimum category with their lines
counted from one, and how many of them fall into each category. A report cannot be built if a line
number has no successor among the words, whether its function would be shown or not.
-/

namespace FunctionMeter

/-- One function as it is shown. -/
structure FunctionReport where
  name : String
  /-- The first line, counted from one. -/
  line : UInt32
  /-- The last line, counted from one. -/
  endLine : UInt32
  loc : UInt32
  category : Category
  deriving DecidableEq, Repr, Inhabited

namespace FunctionReport

/-- The number of a line counted from one, if it is still a word. -/
def lineNumber? (line : UInt32) : Option UInt32 :=
  if line.toNat + 1 < UInt32.size then some (line + 1) else none

def ofMetric? (m : Metric) : Option FunctionReport := do
  let line ← lineNumber? m.range.start.line
  let endLine ← lineNumber? m.range.stop.line
  some ⟨m.name, line, endLine, m.loc, Category.ofLoc m.loc⟩

def fieldNames : List String := ["name", "line", "end_line", "loc", "category"]

def ofJson? (j : Json) : Option FunctionReport := do
  let fields ← j.fields? fieldNames
  let name ← fields.required "name" Json.string?
  let line ← fields.required "line" Json.word?
  let endLine ← fields.required "end_line" Json.word?
  let loc ← fields.required "loc" Json.word?
  let category ← fields.required "category" Category.ofJson?
  some ⟨name, line, endLine, loc, category⟩

def toJson (r : FunctionReport) : Json :=
  .record [("name", .str r.name), ("line", .ofWord r.line), ("end_line", .ofWord r.endLine),
    ("loc", .ofWord r.loc), ("category", .str r.category.name)]

end FunctionReport

/-- The functions of one file as they are shown. -/
structure FileReport where
  path : String
  language : Option String
  functions : List FunctionReport
  deriving DecidableEq, Repr, Inhabited

namespace FileReport

def fieldNames : List String := ["path", "language", "functions"]

def ofJson? (j : Json) : Option FileReport := do
  let fields ← j.fields? fieldNames
  let path ← fields.required "path" Json.string?
  let language ← fields.optional "language" Json.string?
  let functions ← fields.required "functions" (Json.list? FunctionReport.ofJson?)
  some ⟨path, language, functions⟩

/-- A file without a language leaves the field out. -/
def toJson (f : FileReport) : Json :=
  .record ([("path", .str f.path)] ++ (f.language.map fun l => ("language", Json.str l)).toList ++
    [("functions", .ofList FunctionReport.toJson f.functions)])

end FileReport

/-- How many functions are shown in each category. -/
structure Summary where
  low : Nat
  medium : Nat
  high : Nat
  total : Nat
  deriving DecidableEq, Repr, Inhabited

namespace Summary

def zero : Summary := ⟨0, 0, 0, 0⟩

def record (s : Summary) (category : Category) : Summary :=
  match category with
  | .low => { s with low := s.low + 1, total := s.total + 1 }
  | .medium => { s with medium := s.medium + 1, total := s.total + 1 }
  | .high => { s with high := s.high + 1, total := s.total + 1 }

def fieldNames : List String := ["low", "medium", "high", "total"]

def ofJson? (j : Json) : Option Summary := do
  let fields ← j.fields? fieldNames
  let low ← fields.required "low" Json.nat?
  let medium ← fields.required "medium" Json.nat?
  let high ← fields.required "high" Json.nat?
  let total ← fields.required "total" Json.nat?
  some ⟨low, medium, high, total⟩

def toJson (s : Summary) : Json :=
  .record [("low", .ofNat s.low), ("medium", .ofNat s.medium), ("high", .ofNat s.high),
    ("total", .ofNat s.total)]

end Summary

/-- A file with everything that was measured in it. -/
structure MeasuredFile where
  path : String
  language : Option String
  metrics : List Metric
  deriving DecidableEq, Repr, Inhabited

structure Report where
  files : List FileReport
  summary : Summary
  deriving DecidableEq, Repr, Inhabited

namespace Report

def reportFile? (minimum : Category) (file : MeasuredFile) : Option FileReport := do
  let functions ← file.metrics.mapM FunctionReport.ofMetric?
  some ⟨file.path, file.language, functions.filter fun f => Category.atLeast minimum f.category⟩

/-- The report of measured files; the summary counts what is shown. -/
def build? (files : List MeasuredFile) (minimum : Category) : Option Report := do
  let files ← files.mapM (reportFile? minimum)
  let shown := files.flatMap (·.functions)
  some ⟨files, shown.foldl (fun s f => s.record f.category) Summary.zero⟩

def fieldNames : List String := ["files", "summary"]

def ofJson? (j : Json) : Option Report := do
  let fields ← j.fields? fieldNames
  let files ← fields.required "files" (Json.list? FileReport.ofJson?)
  let summary ← fields.required "summary" Summary.ofJson?
  some ⟨files, summary⟩

def toJson (r : Report) : Json :=
  .record [("files", .ofList FileReport.toJson r.files), ("summary", r.summary.toJson)]

end Report

end FunctionMeter
