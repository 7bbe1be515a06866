/-!
# JSON values

Objects keep their members in the order written and may repeat a name: whether a repeated name is
acceptable is for the reader of a particular form to say. A number is `int` only if it was written
as an integer; `real` keeps the spelling of every other number.
-/

namespace FunctionMeter

inductive Json where
  | null
  | bool (value : Bool)
  | int (value : Int)
  | real (literal : String)
  | str (value : String)
  | arr (items : List Json)
  | obj (members : List (String × Json))
  deriving Inhabited, Repr, BEq

namespace Json

/-- The value of a member that occurs exactly once is found by its name; of a repeated member, the
first. -/
def member? (name : String) : Json → Option Json
  | .obj members => members.lookup name
  | _ => none

/-- Puts a member into an object's list: a later value replaces an earlier one in place. -/
def insertMember (name : String) (value : Json) : List (String × Json) → List (String × Json)
  | [] => [(name, value)]
  | (n, v) :: rest =>
    if n = name then (n, value) :: rest else (n, v) :: insertMember name value rest

mutual

/-- Keeps of every repeated member the last value, at every depth. -/
def lastWins : Json → Json
  | .arr items => .arr (lastWinsItems items)
  | .obj members => .obj (lastWinsMembers members [])
  | .null => .null
  | .bool b => .bool b
  | .int i => .int i
  | .real r => .real r
  | .str s => .str s

def lastWinsItems : List Json → List Json
  | [] => []
  | item :: rest => lastWins item :: lastWinsItems rest

def lastWinsMembers : List (String × Json) → List (String × Json) → List (String × Json)
  | [], seen => seen
  | (name, value) :: rest, seen => lastWinsMembers rest (insertMember name (lastWins value) seen)

end

mutual

/-- How deep arrays and objects nest in a value. -/
def depth : Json → Nat
  | .arr items => depthItems items + 1
  | .obj members => depthMembers members + 1
  | .null | .bool _ | .int _ | .real _ | .str _ => 0

def depthItems : List Json → Nat
  | [] => 0
  | item :: rest => max (depth item) (depthItems rest)

def depthMembers : List (String × Json) → Nat
  | [] => 0
  | (_, value) :: rest => max (depth value) (depthMembers rest)

end

end Json

end FunctionMeter
