import FunctionMeter.Json.Decode
import FunctionMeter.Text.Basic

/-!
# Syntax trees

The tree of a source text as a grammar gives it. A node covers the text between two points, whose
columns count bytes. Some of its children are named, the others are the literal tokens of the
grammar; a field gives one child a role.
-/

namespace FunctionMeter

/-- A place in a text: a row, and a byte of that row. -/
structure Point where
  row : Nat
  column : Nat
  deriving DecidableEq, Repr, Inhabited

namespace Point

/-- Text order. -/
def le (p q : Point) : Bool := p.row < q.row || (p.row == q.row && p.column ≤ q.column)

end Point

structure Node where
  kind : String
  named : Bool
  start : Point
  stop : Point
  /-- Field names with the index of the child that plays the role. -/
  fields : List (String × Nat)
  children : List Node
  deriving Repr, Inhabited

namespace Node

def namedChildren (n : Node) : List Node := n.children.filter (·.named)

/-- The child in a role, and the child before it. -/
def fieldWithPrevious? (n : Node) (name : String) : Option (Node × Option Node) := do
  let i ← n.fields.lookup name
  let child ← n.children[i]?
  some (child, if i = 0 then none else n.children[i - 1]?)

/-- The child in a role. -/
def field? (n : Node) (name : String) : Option Node := (n.fieldWithPrevious? name).map (·.1)

/-- The byte offset of a point in a text given by its rows. -/
def offset (rows : List (List Char)) (p : Point) : Nat :=
  Text.startOfLine rows p.row + p.column

/-- The characters between two byte offsets. -/
def slice? (cs : List Char) (start stop : Nat) : Option (List Char) := do
  let (_, tail) ← Text.splitAtByte? cs start
  let (middle, _) ← Text.splitAtByte? tail (stop - start)
  some middle

/-- The text that a node covers. -/
def text? (n : Node) (cs : List Char) : Option String :=
  let rows := Text.rawLines cs
  (slice? cs (offset rows n.start) (offset rows n.stop)).map String.ofList

/-- Reads a recorded node: kind, mark of a named node, start and end, and if it has children its
fields and children. -/
def ofJsonWithin? (depth : Nat) (j : Json) : Option Node :=
  match depth, j with
  | depth + 1, .arr (kind :: named :: startRow :: startColumn :: stopRow :: stopColumn :: rest) => do
    let kind ← kind.string?
    let named ← named.nat?
    let start : Point := ⟨← startRow.nat?, ← startColumn.nat?⟩
    let stop : Point := ⟨← stopRow.nat?, ← stopColumn.nat?⟩
    match rest with
    | [] => some ⟨kind, named = 1, start, stop, [], []⟩
    | [.obj fields, .arr children] =>
      let fields ← fields.mapM fun (name, index) => (index.nat?).map (name, ·)
      let children ← children.mapM (ofJsonWithin? depth)
      some ⟨kind, named = 1, start, stop, fields, children⟩
    | _ => none
  | _, _ => none

def ofJson? (j : Json) : Option Node := ofJsonWithin? j.depth j

end Node

end FunctionMeter
