import FunctionMeter.Json.Basic

/-!
# TOML tables

A TOML document builds one table out of scattered pieces. A table may be filled from one place only:
by its header, by dotted keys under one header, or by a value in braces. Tables on the way to a
header come into being with it and may still get a header of their own.
-/

namespace FunctionMeter.Toml

inductive Item where
  | value (json : Json)
  /-- A table; `implicit` if no header names it, `dotted` if dotted keys made it. -/
  | table (implicit dotted : Bool) (entries : List (String × Item))
  /-- A list of tables that share a header. -/
  | tables (elements : List (List (String × Item)))
  deriving Repr, Inhabited

abbrev Entries := List (String × Item)

namespace Entries

/-- Sets the item under a key to what a function makes of the present one. -/
def modify (key : String) (f : Option Item → Option Item) : Entries → Option Entries
  | [] => (f none).map fun item => [(key, item)]
  | (k, item) :: rest =>
    if k = key then (f (some item)).map fun item => (k, item) :: rest
    else (modify key f rest).map ((k, item) :: ·)

/-- Changes the table at a path, making the tables on the way that are missing. The change is told
whether dotted keys made the table. A path of dotted keys does not enter tables that have a header
or stand in braces. -/
def within (byDots : Bool) (change : Bool → Entries → Option Entries) :
    List String → Bool → Entries → Option Entries
  | [], dotted, entries => change dotted entries
  | key :: path, _, entries =>
    entries.modify key fun
      | none => (within byDots change path byDots []).map (Item.table true byDots)
      | some (.value _) => none
      | some (.table implicit dotted entries) =>
        if byDots && !implicit then none
        else (within byDots change path dotted entries).map (Item.table implicit dotted)
      | some (.tables elements) =>
        match elements.getLast? with
        | some last =>
          (within byDots change path false last).map fun last =>
            .tables (elements.dropLast ++ [last])
        | none => none

/-- Adds a value under a new key of the table that dotted keys lead to. -/
def add (path : List String) (key : String) (value : Json) (entries : Entries) : Option Entries :=
  within true (fun dotted entries =>
    if dotted == path.isEmpty then none
    else entries.modify key fun
      | none => some (.value value)
      | some _ => none) path false entries

/-- Adds a value below a header. -/
def addBelow (header path : List String) (key : String) (value : Json) (root : Entries) :
    Option Entries :=
  within false (fun _ entries => entries.add path key value) header false root

/-- Gives a table its header. -/
def openTable (path : List String) (key : String) (root : Entries) : Option Entries :=
  within false (fun _ entries => entries.modify key fun
    | none => some (.table false false [])
    | some (.table true false entries) => some (.table false false entries)
    | some _ => none) path false root

/-- Starts a new element of a list of tables. -/
def openElement (path : List String) (key : String) (root : Entries) : Option Entries :=
  within false (fun _ entries => entries.modify key fun
    | none => some (.tables [[]])
    | some (.tables elements) => some (.tables (elements ++ [[]]))
    | some _ => none) path false root

end Entries

mutual

/-- The value that an item denotes. -/
def Item.toJson : Item → Json
  | .value json => json
  | .table _ _ entries => .obj (entriesToJson entries)
  | .tables elements => .arr (elementsToJson elements)

def entriesToJson : List (String × Item) → List (String × Json)
  | [] => []
  | (key, item) :: rest => (key, item.toJson) :: entriesToJson rest

def elementsToJson : List (List (String × Item)) → List Json
  | [] => []
  | entries :: rest => .obj (entriesToJson entries) :: elementsToJson rest

end

end FunctionMeter.Toml
