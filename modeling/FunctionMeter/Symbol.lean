import FunctionMeter.Position

/-!
# Symbols

What a document declares, as a forest: each symbol has the range of its whole text, the range of
its signature, and the symbols declared inside it. Functions, methods and constructors are
function-like and are measured; everything else only holds them.
-/

namespace FunctionMeter

inductive SymbolKind where
  | function
  | method
  | constructor
  | other
  deriving DecidableEq, Repr, Inhabited

namespace SymbolKind

/-- The kinds that an editor numbers 12, 6 and 9 are function-like; all other numbers, also those
outside the numbering, are `other`. -/
def ofNumber (n : Int32) : SymbolKind :=
  if n = 12 then .function
  else if n = 6 then .method
  else if n = 9 then .constructor
  else .other

def isFunctionLike : SymbolKind → Bool
  | .other => false
  | _ => true

def name : SymbolKind → String
  | .function => "function"
  | .method => "method"
  | .constructor => "constructor"
  | .other => "other"

def ofJson? : Json → Option SymbolKind :=
  Json.variant? [("function", .function), ("method", .method), ("constructor", .constructor),
    ("other", .other)]

end SymbolKind

structure Symbol where
  name : String
  kind : SymbolKind
  fullRange : Range
  signatureRange : Range
  children : List Symbol
  deriving Repr, Inhabited, BEq

namespace Symbol

mutual

/-- A symbol and everything below it, each symbol before its children. -/
def preorder : Symbol → List Symbol
  | ⟨name, kind, full, signature, children⟩ =>
    ⟨name, kind, full, signature, children⟩ :: preorderAll children

/-- The symbols of a forest in document order. -/
def preorderAll : List Symbol → List Symbol
  | [] => []
  | symbol :: rest => preorder symbol ++ preorderAll rest

end

def isFunctionLike (s : Symbol) : Bool := s.kind.isFunctionLike

def fieldNames : List String := ["name", "kind", "full_range", "signature_range", "children"]

mutual

def toJson : Symbol → Json
  | ⟨name, kind, full, signature, children⟩ =>
    .record [("name", .str name), ("kind", .str kind.name), ("full_range", full.toJson),
      ("signature_range", signature.toJson), ("children", .arr (toJsonAll children))]

def toJsonAll : List Symbol → List Json
  | [] => []
  | symbol :: rest => toJson symbol :: toJsonAll rest

end

/-- Reads a symbol; `depth` bounds the nesting of symbols. -/
def ofJsonWithin? (depth : Nat) (j : Json) : Option Symbol :=
  match depth with
  | 0 => none
  | depth + 1 => do
    let fields ← j.fields? fieldNames
    let name ← fields.withDefault "name" Json.string? ""
    let kind ← fields.withDefault "kind" SymbolKind.ofJson? .other
    let full ← fields.required "full_range" Range.ofJson?
    let signature ← fields.required "signature_range" Range.ofJson?
    let children ← fields.withDefault "children" (Json.list? (ofJsonWithin? depth)) []
    some ⟨name, kind, full, signature, children⟩

def ofJson? (j : Json) : Option Symbol := ofJsonWithin? (j.depth + 1) j

end Symbol

end FunctionMeter
