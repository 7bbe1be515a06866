import FunctionMeter.Document.Basic
import FunctionMeter.Language.Role

/-!
# Symbols of a syntax tree

Every named node with a role becomes a symbol. Nodes without a role are transparent: what is found
below them belongs to the nearest enclosing symbol. The signature of a callable runs from its name
to the end of whatever stands before its body.
-/

namespace FunctionMeter

/-- The name of a symbol without one. -/
def anonymous : String := "<anonymous>"

namespace Document

/-- The position of a point, in UTF-16 units. Where the point is no character boundary of the
line's content, such as behind a carriage return, its byte column stands. -/
def position (lines : List String) (p : Point) : Position :=
  let column := match lines[p.row]? with
    | some line => (Text.columnOfByte? line.toList p.column).getD p.column
    | none => p.column
  ⟨UInt32.ofNat p.row, UInt32.ofNat column⟩

end Document

/-- A source text as the walk over its tree sees it. -/
structure Source where
  language : Language
  text : List Char
  lines : List String

namespace Source

def ofDocument (language : Language) (d : Document) : Source :=
  ⟨language, d.text.toList, d.lines⟩

def position (source : Source) (p : Point) : Position := Document.position source.lines p

/-- The node that carries the name of a symbol. -/
def nameNode (source : Source) (node : Node) : Option Node := source.language.nameNode node

def name (source : Source) (node : Node) : String :=
  ((source.nameNode node).bind fun n => n.text? source.text).getD anonymous

/-- A signature starts at the name; without a name, where the node starts. -/
def signatureStart (source : Source) (node : Node) : Point :=
  match source.nameNode node with
  | some n => n.start
  | none => node.start

/-- A container's signature ends with its name. A callable's ends with the node before its body, or
where the body starts if there is none; without a body the signature is everything. -/
def signatureEnd (source : Source) (node : Node) : Role → Point
  | .container =>
    match source.nameNode node with
    | some n => n.stop
    | none => node.start
  | .callable _ =>
    match source.language.bodyNode node with
    | some (_, some previous) => previous.stop
    | some (body, none) => body.start
    | none => node.stop

def kind (source : Source) (node : Node) (enclosing : Option (Role × String)) : Role → SymbolKind
  | .container => .other
  | .callable base => source.language.refineKind base (source.name node) enclosing

/-- The symbol of a node with a role, around the symbols found below it. -/
def symbol (source : Source) (node : Node) (role : Role) (enclosing : Option (Role × String))
    (children : List Symbol) : Symbol :=
  let start := source.position (source.signatureStart node)
  let stop := source.position (source.signatureEnd node role)
  { name := source.name node
    kind := source.kind node enclosing role
    fullRange := ⟨source.position node.start, source.position node.stop⟩
    signatureRange := ⟨start, stop.max start⟩
    children }

mutual

/-- The symbols of a node: its own around those below it, or if it has no role, those below it. -/
def ofNode (source : Source) (enclosing : Option (Role × String)) : Node → List Symbol
  | ⟨kind, named, start, stop, fields, children⟩ =>
    if named then
      let node : Node := ⟨kind, named, start, stop, fields, children⟩
      match source.language.role node with
      | some role =>
        let below := ofNodes source (some (role, source.name node)) children
        [source.symbol node role enclosing below]
      | none => ofNodes source enclosing children
    else []

def ofNodes (source : Source) (enclosing : Option (Role × String)) : List Node → List Symbol
  | [] => []
  | node :: rest => ofNode source enclosing node ++ ofNodes source enclosing rest

end

/-- The symbols below the root of a tree. -/
def symbols (source : Source) (root : Node) : List Symbol := ofNodes source none root.children

end Source

namespace Document

/-- The language of a document, by its extension. -/
def language? (d : Document) : Option Language := d.extension.bind Language.ofExtension?

/-- The symbols of a document with the given tree; nothing if its language is not known. -/
def symbols? (d : Document) (root : Node) : Option (List Symbol) :=
  d.language?.map fun language => (Source.ofDocument language d).symbols root

end Document

end FunctionMeter
