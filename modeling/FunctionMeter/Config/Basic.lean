import FunctionMeter.Category
import FunctionMeter.Toml.Reader

/-!
# Configuration

What is displayed and how: whether functions get labels and highlights, the text of a label with a
placeholder for the count, and a colour for each category. Settings come as TOML or as JSON and are
incomplete: what is missing has its default. Every configuration that has been read holds the
placeholder in its label format.
-/

namespace FunctionMeter

structure Display where
  /-- Labels behind each signature. -/
  labels : Bool
  /-- A background for each function. -/
  highlight : Bool
  /-- The text of a label. -/
  labelFormat : String
  deriving DecidableEq, Repr, Inhabited

structure Colours where
  low : String
  medium : String
  high : String
  deriving DecidableEq, Repr, Inhabited

structure Config where
  display : Display
  colours : Colours
  deriving DecidableEq, Repr, Inhabited

namespace Label

/-- What the count takes the place of. -/
def placeholder : List Char := ['{', 'l', 'o', 'c', '}']

def hasPlaceholder : List Char → Bool
  | [] => false
  | c :: rest => placeholder.isPrefixOf (c :: rest) || hasPlaceholder rest

/-- Puts a text in the place of every placeholder, from left to right. -/
def fill (text : List Char) : List Char → List Char
  | [] => []
  | '{' :: 'l' :: 'o' :: 'c' :: '}' :: rest => text ++ fill text rest
  | c :: rest => c :: fill text rest

end Label

namespace Colours

def default : Colours := ⟨"#4caf50", "#ff9800", "#f44336"⟩

def ofCategory (c : Colours) : Category → String
  | .low => c.low
  | .medium => c.medium
  | .high => c.high

def fieldNames : List String := ["low", "medium", "high"]

def ofFields? (fields : Json.Fields) : Option Colours := do
  let low ← fields.withDefault "low" Json.string? default.low
  let medium ← fields.withDefault "medium" Json.string? default.medium
  let high ← fields.withDefault "high" Json.string? default.high
  some ⟨low, medium, high⟩

def toJson (c : Colours) : Json :=
  .record [("low", .str c.low), ("medium", .str c.medium), ("high", .str c.high)]

end Colours

namespace Display

def default : Display := ⟨true, true, "\x7bloc\x7d LOC"⟩

def fieldNames : List String := ["labels", "highlight", "label_format"]

def ofFields? (fields : Json.Fields) : Option Display := do
  let labels ← fields.withDefault "labels" Json.bool? default.labels
  let highlight ← fields.withDefault "highlight" Json.bool? default.highlight
  let labelFormat ← fields.withDefault "label_format" Json.string? default.labelFormat
  some ⟨labels, highlight, labelFormat⟩

def toJson (d : Display) : Json :=
  .record [("labels", .bool d.labels), ("highlight", .bool d.highlight),
    ("label_format", .str d.labelFormat)]

end Display

namespace Config

def default : Config := ⟨Display.default, Colours.default⟩

/-- Why settings are refused. -/
inductive Refusal where
  /-- They cannot be read, or a setting has a value of the wrong kind. -/
  | malformed
  /-- The label format lacks the placeholder. -/
  | noPlaceholder
  deriving DecidableEq, Repr

def Refusal.message : Refusal → String
  | .malformed => "malformed settings"
  | .noPlaceholder => "display.label_format must contain \x7bloc\x7d"

def fieldNames : List String := ["display", "colors"]

/-- Reads settings, given how the fields of a record are found. -/
def decode? (fields? : List String → Json → Option Json.Fields) (j : Json) : Option Config := do
  let fields ← fields? fieldNames j
  let display ← fields.withDefault "display"
    (fun d => (fields? Display.fieldNames d).bind Display.ofFields?) Display.default
  let colours ← fields.withDefault "colors"
    (fun c => (fields? Colours.fieldNames c).bind Colours.ofFields?) Colours.default
  some ⟨display, colours⟩

def check (config : Config) : Except Refusal Config :=
  if Label.hasPlaceholder config.display.labelFormat.toList then .ok config
  else .error .noPlaceholder

def checkDecoded : Option Config → Except Refusal Config
  | some config => check config
  | none => .error .malformed

/-- Reads settings from JSON; `null` means the defaults. -/
def ofJson (j : Json) : Except Refusal Config :=
  match j with
  | .null => .ok default
  | j => checkDecoded (decode? Json.fields? j)

/-- Reads settings from TOML, where a record written as an array may have more items than the record
has fields. -/
def ofToml (text : String) : Except Refusal Config :=
  checkDecoded ((Toml.read? text).bind (decode? Json.leadingFields?))

/-- The label of a count. -/
def label (config : Config) (loc : UInt32) : String :=
  String.ofList (Label.fill loc.toNat.repr.toList config.display.labelFormat.toList)

def colour (config : Config) (category : Category) : String := config.colours.ofCategory category

def toJson (config : Config) : Json :=
  .record [("display", config.display.toJson), ("colors", config.colours.toJson)]

/-- The settings of the first file that can be read and accepted; the defaults if there is none. -/
def load (candidates : List (Option String)) : Config :=
  let accepted (text : Option String) : Option Config :=
    text.bind fun text => (ofToml text).toOption
  (candidates.findSome? accepted).getD default

/-- The name of the file with a project's settings. -/
def fileName : String := "funcloc.toml"

/-- A file with all settings at their defaults, to start from. -/
def starter : String :=
  "# funcloc configuration\n" ++
  "#\n" ++
  "# Tier thresholds are fixed: up to 35 LOC is low, 36-60 medium, above 60 high.\n" ++
  "\n" ++
  "[display]\n" ++
  "# Inline \"N LOC\" label after each function signature\n" ++
  "labels = true\n" ++
  "# Background highlight of each function by tier\n" ++
  "highlight = true\n" ++
  "# Label text, \x7bloc\x7d is replaced with the measured count\n" ++
  "label_format = \"\x7bloc\x7d LOC\"\n" ++
  "\n" ++
  "[colors]\n" ++
  "low = \"#4caf50\"\n" ++
  "medium = \"#ff9800\"\n" ++
  "high = \"#f44336\"\n"

end Config

end FunctionMeter
