import FunctionMeter.Json.Decode

/-!
# Categories

The three tiers of function size. A boundary value belongs to the lower tier.
-/

namespace FunctionMeter

inductive Category where
  | low
  | medium
  | high
  deriving DecidableEq, Repr, Inhabited

namespace Category

/-- The largest count that is still low. -/
def lowMax : Nat := 35

/-- The largest count that is still medium. -/
def mediumMax : Nat := 60

/-- The tier of a count of lines. -/
def ofLoc (loc : UInt32) : Category :=
  if loc.toNat ≤ lowMax then .low else if loc.toNat ≤ mediumMax then .medium else .high

def rank : Category → Nat
  | .low => 0
  | .medium => 1
  | .high => 2

def name : Category → String
  | .low => "low"
  | .medium => "medium"
  | .high => "high"

/-- Whether a category is at or above a minimum. -/
def atLeast (minimum category : Category) : Bool := minimum.rank ≤ category.rank

def byName : List (String × Category) := [("low", .low), ("medium", .medium), ("high", .high)]

def ofJson? : Json → Option Category := Json.variant? byName

/-- Letters A to Z become small; every other character stays. -/
def fold (text : String) : String := String.ofList (text.toList.map Char.toLower)

/-- Reads a category name in any mixture of case; the error is the text to show. -/
def parse (text : String) : Except String Category :=
  match byName.lookup (fold text) with
  | some category => .ok category
  | none => .error ("unknown category '" ++ fold text ++ "'")

end Category

end FunctionMeter
