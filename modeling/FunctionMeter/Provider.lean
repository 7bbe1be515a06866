import FunctionMeter.Metric
import FunctionMeter.Tree.Walk

/-!
# Symbol providers

Measuring never parses source text: it asks a provider for the symbols of a document. A provider
may have nothing for a document or may fail; either way nothing is measured.
-/

namespace FunctionMeter

/-- The syntax tree of one text in the language of an extension. -/
structure Parsed where
  extension : Option String
  text : String
  root : Option Node
  deriving Repr, Inhabited

/-- What tells the symbols of a document, if there are any to tell of. The answer depends on the
document alone, so that a document measured twice has the same metrics. -/
structure Provider where
  symbols : Document → Except String (Option (List Symbol))

namespace Provider

/-- The same symbols for every document. -/
def fixed (symbols : List Symbol) : Provider :=
  ⟨fun _ => .ok (if symbols.isEmpty then none else some symbols)⟩

/-- Nothing for any document. -/
def silent : Provider := ⟨fun _ => .ok none⟩

/-- A failure for every document. -/
def broken (message : String) : Provider := ⟨fun _ => .error message⟩

/-- The symbols listed for each name of a document. -/
def listed (documents : List (String × List Symbol)) : Provider :=
  ⟨fun d => .ok (documents.lookup d.uri.text)⟩

/-- The symbols of the syntax trees of known texts. -/
def parsed (trees : List Parsed) : Provider :=
  ⟨fun d =>
    match d.language? with
    | none => .ok none
    | some _ =>
      match trees.find? fun p => p.extension = d.extension ∧ p.text = d.text with
      | some { root := some root, .. } => .ok (d.symbols? root)
      | _ => .error ("no syntax tree for " ++ d.uri.text)⟩

/-- Measures a document. A provider that fails or has nothing yields no metrics. -/
def measure (provider : Provider) (d : Document) : List Metric :=
  match provider.symbols d with
  | .ok (some symbols) => Metric.ofSymbols d.lines symbols
  | _ => []

end Provider

end FunctionMeter
