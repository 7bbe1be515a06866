import FunctionMeter.Json.Reader
import FunctionMeter.Symbol
import FunctionMeter.Uri.Basic

/-!
# Outlines

Editors describe the symbols of a document as JSON: a nested list, in which every symbol has the
range of its signature and may have children, or a flat list of locations. Only the nested form can
be measured. A list that fits the flat form in every element is flat; the empty list and `null` mean
that there are no symbols.
-/

namespace FunctionMeter.Outline

inductive Failure where
  /-- The text is not JSON, or fits neither form. -/
  | malformed
  /-- The list is flat, so its symbols have no signatures. -/
  | flat
  deriving DecidableEq, Repr

def locationFieldNames : List String := ["uri", "range"]

def isLocation (j : Json) : Bool :=
  (do let fields ← j.fields? locationFieldNames
      let _ ← fields.required "uri" Uri.ofJson?
      let _ ← fields.required "range" Range.ofJson?
      some ()).isSome

def flatFieldNames : List String :=
  ["name", "kind", "tags", "deprecated", "location", "containerName"]

/-- Whether a value is an element of the flat form. -/
def isFlatSymbol (j : Json) : Bool :=
  (do let fields ← j.fields? flatFieldNames
      let _ ← fields.required "name" Json.string?
      let _ ← fields.required "kind" Json.int32?
      let _ ← fields.optional "tags" (Json.list? Json.int32?)
      let _ ← fields.optional "deprecated" Json.bool?
      let _ ← fields.required "location" fun l => if isLocation l then some () else none
      let _ ← fields.optional "containerName" Json.string?
      some ()).isSome

def nestedFieldNames : List String :=
  ["name", "detail", "kind", "tags", "deprecated", "range", "selectionRange", "children"]

/-- Reads an element of the nested form; `depth` bounds the nesting of symbols. -/
def symbolWithin? (depth : Nat) (j : Json) : Option Symbol :=
  match depth with
  | 0 => none
  | depth + 1 => do
    let fields ← j.fields? nestedFieldNames
    let name ← fields.required "name" Json.string?
    let _ ← fields.optional "detail" Json.string?
    let kind ← fields.required "kind" Json.int32?
    let _ ← fields.optional "tags" (Json.list? Json.int32?)
    let _ ← fields.optional "deprecated" Json.bool?
    let range ← fields.required "range" Range.ofJson?
    let selection ← fields.required "selectionRange" Range.ofJson?
    let children ← fields.optional "children" (Json.list? (symbolWithin? depth))
    some ⟨name, SymbolKind.ofNumber kind, range, selection, children.getD []⟩

def symbol? (j : Json) : Option Symbol := symbolWithin? (j.depth + 1) j

/-- The symbols that a response describes. -/
def ofJson (j : Json) : Except Failure (List Symbol) :=
  match j with
  | .null => .ok []
  | .arr items =>
    if items.isEmpty then .ok []
    else if items.all isFlatSymbol then .error .flat
    else
      match items.mapM symbol? with
      | some symbols => .ok symbols
      | none => .error .malformed
  | _ => .error .malformed

/-- Reads a response from its text. -/
def read (text : String) : Except Failure (List Symbol) :=
  match Json.read? Json.textDepth text with
  | some j => ofJson j
  | none => .error .malformed

/-- What is told about a failure that the user can mend. -/
def Failure.message : Failure → String
  | .malformed => "malformed document symbols"
  | .flat => "flat SymbolInformation responses are not supported, " ++
      "request hierarchical document symbols"

end FunctionMeter.Outline
