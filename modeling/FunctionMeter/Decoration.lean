import FunctionMeter.Config.Basic
import FunctionMeter.Metric
import FunctionMeter.Uri.Basic

/-!
# Decorations

What an editor is to draw for a document. A document without functions is cleared; it is never
painted with nothing, since what was drawn before has to go.
-/

namespace FunctionMeter

/-- The ranges of functions to highlight, by category. -/
structure Highlights where
  low : List Range
  medium : List Range
  high : List Range
  deriving DecidableEq, Repr, Inhabited

namespace Highlights

def empty : Highlights := ⟨[], [], []⟩

/-- Adds a range to those of its category. -/
def push (h : Highlights) (category : Category) (range : Range) : Highlights :=
  match category with
  | .low => { h with low := h.low ++ [range] }
  | .medium => { h with medium := h.medium ++ [range] }
  | .high => { h with high := h.high ++ [range] }

def fieldNames : List String := ["low", "medium", "high"]

def ofJson? (j : Json) : Option Highlights := do
  let fields ← j.fields? fieldNames
  let low ← fields.required "low" (Json.list? Range.ofJson?)
  let medium ← fields.required "medium" (Json.list? Range.ofJson?)
  let high ← fields.required "high" (Json.list? Range.ofJson?)
  some ⟨low, medium, high⟩

def toJson (h : Highlights) : Json :=
  .record [("low", .ofList Range.toJson h.low), ("medium", .ofList Range.toJson h.medium),
    ("high", .ofList Range.toJson h.high)]

end Highlights

/-- A note at the end of a signature. -/
structure Label where
  position : Position
  text : String
  colour : String
  category : Category
  loc : UInt32
  deriving DecidableEq, Repr, Inhabited

namespace Label

def ofMetric (config : Config) (m : Metric) : Label :=
  let category := Category.ofLoc m.loc
  { position := m.signaturePosition, text := config.label m.loc, colour := config.colour category
    category, loc := m.loc }

def fieldNames : List String := ["position", "text", "color", "category", "loc"]

def ofJson? (j : Json) : Option Label := do
  let fields ← j.fields? fieldNames
  let position ← fields.required "position" Position.ofJson?
  let text ← fields.required "text" Json.string?
  let colour ← fields.required "color" Json.string?
  let category ← fields.required "category" (Json.taggedVariant? Category.byName)
  let loc ← fields.required "loc" Json.word?
  some ⟨position, text, colour, category, loc⟩

def toJson (l : Label) : Json :=
  .record [("position", l.position.toJson), ("text", .str l.text), ("color", .str l.colour),
    ("category", .str l.category.name), ("loc", .ofWord l.loc)]

end Label

inductive Decorations where
  /-- Remove all decorations. -/
  | clear
  /-- Draw these in the place of all others. -/
  | paint (highlights : Highlights) (labels : List Label)
  deriving DecidableEq, Repr, Inhabited

namespace Decorations

/-- Adds a metric to what is painted already, as far as it is wanted. -/
def addMetric (config : Config) (painted : Highlights × List Label) (m : Metric) :
    Highlights × List Label :=
  let (highlights, labels) := painted
  (if config.display.highlight then highlights.push (Category.ofLoc m.loc) m.range else highlights,
    if config.display.labels then labels ++ [Label.ofMetric config m] else labels)

def ofMetrics (config : Config) (metrics : List Metric) : Decorations :=
  if metrics.isEmpty then .clear
  else
    let (highlights, labels) := metrics.foldl (addMetric config) (.empty, [])
    .paint highlights labels

def isClear : Decorations → Bool
  | .clear => true
  | .paint _ _ => false

def labels : Decorations → List Label
  | .clear => []
  | .paint _ labels => labels

def paintFieldNames : List String := ["highlights", "labels"]

/-- Reads decorations of a kind from the rest of their record. -/
def ofKind? (kind : String) (rest : Json) : Option Decorations :=
  match kind, rest with
  | "clear", .obj _ => some .clear
  | "clear", .arr [] => some .clear
  | "paint", rest => do
    let fields ← rest.fields? paintFieldNames
    let highlights ← fields.required "highlights" Highlights.ofJson?
    let labels ← fields.required "labels" (Json.list? Label.ofJson?)
    some (.paint highlights labels)
  | _, _ => none

/-- Reads decorations: an object that names its kind, or an array that starts with it. -/
def ofJson? : Json → Option Decorations
  | .obj members =>
    match members.filter (·.1 = "kind") with
    | [(_, .str kind)] => ofKind? kind (.obj (members.filter (·.1 ≠ "kind")))
    | _ => none
  | .arr (.str kind :: rest) => ofKind? kind (.arr rest)
  | _ => none

def toJson : Decorations → Json
  | .clear => .record [("kind", .str "clear")]
  | .paint highlights labels =>
    .record [("kind", .str "paint"), ("highlights", highlights.toJson),
      ("labels", .ofList Label.toJson labels)]

end Decorations

/-- The decorations of one version of a document, as they are sent to the editor. -/
structure DecorationNotice where
  uri : Uri
  version : Int32
  decorations : Decorations
  deriving DecidableEq, Repr, Inhabited

namespace DecorationNotice

def fieldNames : List String := ["uri", "version", "decorations"]

def ofJson? (j : Json) : Option DecorationNotice := do
  let fields ← j.fields? fieldNames
  let uri ← fields.required "uri" Uri.ofJson?
  let version ← fields.required "version" Json.int32?
  let decorations ← fields.required "decorations" Decorations.ofJson?
  some ⟨uri, version, decorations⟩

def toJson (n : DecorationNotice) : Json :=
  .record [("uri", n.uri.toJson), ("version", .ofInt32 n.version),
    ("decorations", n.decorations.toJson)]

end DecorationNotice

end FunctionMeter
