import FunctionMeter.Json.Writer
import FunctionMeter.Report.Basic
import FunctionMeter.Text.Case
import FunctionMeter.Text.Style

/-!
# Rendering reports

A report is written as a table for a terminal or as indented JSON.
-/

namespace FunctionMeter

inductive Format where
  | text
  | json
  deriving DecidableEq, Repr, Inhabited

namespace Format

def byName : List (String × Format) :=
  [("text", .text), ("txt", .text), ("terminal", .text), ("json", .json)]

/-- Reads the name of a format in any mixture of case; the error is the text to show. -/
def parse (name : String) : Except String Format :=
  match byName.lookup (Text.lower name) with
  | some format => .ok format
  | none => .error ("Unknown format '" ++ name ++ "'. Valid formats: text, json")

def name : Format → String
  | .text => "text"
  | .json => "json"

end Format

namespace Category

def style : Category → Style
  | .low => .green
  | .medium => .yellow
  | .high => .redBold

end Category

namespace Report

/-- One row of the table; names are filled up to the width of the longest in the file. -/
def functionRow (coloured : Bool) (width : Nat) (f : FunctionReport) : String :=
  "  " ++ Style.dim.apply coloured (Text.padLeft 5 f.line.toNat.repr) ++ "  " ++
    Text.padRight width f.name ++ "  " ++ Text.padLeft 4 f.loc.toNat.repr ++ " LOC  " ++
    f.category.style.apply coloured f.category.name ++ "\n"

def fileTable (coloured : Bool) (file : FileReport) : String :=
  let language := match file.language with
    | some language => " (" ++ language ++ ")"
    | none => ""
  let heading := "\n" ++ Style.cyanBold.apply coloured file.path ++
    Style.dim.apply coloured language ++ "\n"
  if file.functions.isEmpty then
    heading ++ "  " ++ Style.dim.apply coloured "no functions" ++ "\n"
  else
    let width := file.functions.foldl (fun w f => max w f.name.length) 0
    heading ++ String.join (file.functions.map (functionRow coloured width))

def summaryLine (coloured : Bool) (s : Summary) : String :=
  let count (c : Category) (n : Nat) : String := c.style.apply coloured n.repr
  "\n" ++ Style.bold.apply coloured "Summary:" ++ " " ++ s.total.repr ++ " functions: " ++
    count .low s.low ++ " low, " ++ count .medium s.medium ++ " medium, " ++
    count .high s.high ++ " high\n"

def renderText (coloured : Bool) (r : Report) : String :=
  String.join (r.files.map (fileTable coloured)) ++ summaryLine coloured r.summary

def render (coloured : Bool) (format : Format) (r : Report) : String :=
  match format with
  | .text => r.renderText coloured
  | .json => r.toJson.pretty

end Report

end FunctionMeter
