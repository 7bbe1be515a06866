import FunctionMeter.Path
import FunctionMeter.Report.Basic
import FunctionMeter.Text.Style

/-!
# Watching

A watch passes over build products, dependencies and everything hidden. Only the components below
the watched directory count; a path outside of it is judged as a whole.

When a file has changed, its functions are matched with those of the measurement before by name, in
order of appearance: the first of a name with the first, the second with the second. Matched
functions of different size are resized, functions without a match are added or removed.
-/

namespace FunctionMeter.Watch

/-! ## Ignored paths -/

def ignoredNames : List String := ["target", "node_modules", "__pycache__", "dist", "build"]

def isIgnoredName (name : String) : Bool :=
  name.toList.head? = some '.' || ignoredNames.contains name

def isIgnored (root path : String) : Bool :=
  let components := (Path.below? root path).getD (Path.components path)
  components.any fun c => isIgnoredName c.text

/-! ## Changes between two measurements -/

inductive SizeChange where
  | added (name : String) (loc : UInt32) (category : Category)
  | removed (name : String)
  | resized (name : String) (before after : UInt32) (categoryBefore categoryAfter : Category)
  deriving DecidableEq, Repr, Inhabited

/-- Functions on stacks, one stack for each name, with its top in front. -/
abbrev Stacks := List (String × List FunctionReport)

namespace Stacks

/-- Puts a function on the stack of its name. -/
def push : Stacks → FunctionReport → Stacks
  | [], f => [(f.name, [f])]
  | (name, stack) :: others, f =>
    if name = f.name then (name, f :: stack) :: others else (name, stack) :: push others f

/-- Takes the top off the stack of a name. -/
def pop? (name : String) : Stacks → Option (FunctionReport × Stacks)
  | [] => none
  | (other, stack) :: others =>
    if other = name then
      match stack with
      | [] => none
      | f :: below => some (f, (other, below) :: others)
    else (pop? name others).map fun (f, left) => (f, (other, stack) :: left)

/-- Stacks the functions of a list from its end, so that the first of a name comes off first. -/
def ofFunctions (functions : List FunctionReport) : Stacks := functions.reverse.foldl push []

/-- Matches the new functions one after another with what is left of the old ones; gives the
changes and the old functions that stay unmatched. -/
def matchAfter (remaining : Stacks) : List FunctionReport → List SizeChange × Stacks
  | [] => ([], remaining)
  | f :: rest =>
    match remaining.pop? f.name with
    | some (old, left) =>
      let (changes, left) := matchAfter left rest
      if old.loc = f.loc then (changes, left)
      else (.resized f.name old.loc f.loc old.category f.category :: changes, left)
    | none =>
      let (changes, left) := matchAfter remaining rest
      (.added f.name f.loc f.category :: changes, left)

/-- Names the unmatched functions, going through the old list in order. -/
def removals (remaining : Stacks) : List FunctionReport → List SizeChange
  | [] => []
  | f :: rest =>
    match remaining.pop? f.name with
    | some (_, left) => .removed f.name :: removals left rest
    | none => removals remaining rest

end Stacks

def diff (before after : List FunctionReport) : List SizeChange :=
  let (changes, left) := (Stacks.ofFunctions before).matchAfter after
  changes ++ left.removals before

namespace SizeChange

def toJson : SizeChange → Json
  | .added name loc category =>
    .record [("change", .str "added"), ("name", .str name), ("loc", .ofWord loc),
      ("category", .str category.name)]
  | .removed name => .record [("change", .str "removed"), ("name", .str name)]
  | .resized name before after categoryBefore categoryAfter =>
    .record [("change", .str "resized"), ("name", .str name), ("from", .ofWord before),
      ("to", .ofWord after), ("from_category", .str categoryBefore.name),
      ("to_category", .str categoryAfter.name)]

/-- The category of a resized function, or the step between two categories: up is red, down is
green. -/
def tier (coloured : Bool) (before after : Category) : String :=
  if before = after then Style.dim.apply coloured after.name
  else
    let step := before.name ++ " → " ++ after.name
    if before.rank < after.rank then Style.redBold.apply coloured step
    else Style.green.apply coloured step

def render (coloured : Bool) : SizeChange → String
  | .added name loc category =>
    "  " ++ Style.green.apply coloured "+" ++ " " ++ name ++ " " ++ loc.toNat.repr ++ " LOC (" ++
      category.name ++ ")\n"
  | .removed name =>
    "  " ++ Style.red.apply coloured "-" ++ " " ++ Style.strikethrough.apply coloured name ++ "\n"
  | .resized name before after categoryBefore categoryAfter =>
    "  " ++ Style.yellow.apply coloured "~" ++ " " ++ name ++ " " ++ before.toNat.repr ++ " → " ++
      after.toNat.repr ++ " LOC (" ++ tier coloured categoryBefore categoryAfter ++ ")\n"

end SizeChange

/-- The notice about a changed file: time, path and changes. -/
def notice (coloured : Bool) (time path : String) (changes : List SizeChange) : String :=
  Style.dim.apply coloured ("[" ++ time ++ "]") ++ " " ++ Style.cyanBold.apply coloured path ++
    "\n" ++ String.join (changes.map (SizeChange.render coloured)) ++ "\n"

end FunctionMeter.Watch
