import FunctionMeter.Ignore.Rules

/-!
# Walking a directory

A walk finds the files below a directory that are neither hidden nor ignored. The ignore files of
the directories above the walked one count too; the walked directory itself is never skipped.
-/

namespace FunctionMeter.Ignore

/-- A file that a walk found: the path to it as it is shown, and the names that lead to it. -/
structure Found where
  path : String
  names : List String
  deriving DecidableEq, Repr, Inhabited

mutual

/-- The files at an entry below a walked directory. -/
def walkEntry (levels : List Level) (path : String) (names : List String) : Entry → List Found
  | .file content root =>
    if isSkipped levels names (Entry.isDirectory (.file content root)) then [] else [⟨path, names⟩]
  | .directory entries =>
    if isSkipped levels names true then []
    else
      walkEntries (Level.ofDirectory names.length (.directory entries) :: levels) path names
        entries

def walkEntries (levels : List Level) (path : String) (names : List String) :
    List (String × Entry) → List Found
  | [] => []
  | (name, entry) :: rest =>
    walkEntry levels (Path.join path name) (names ++ [name]) entry ++
      walkEntries levels path names rest

end

/-- The levels of the directories on the way to a directory, the deepest first. -/
def levelsAbove (root : Entry) (names : List String) : List Level :=
  (List.range names.length).reverse.map fun depth =>
    Level.ofDirectory depth ((root.at? (names.take depth)).getD (.directory []))

/-- The files below a directory, shown with the path by which the directory was given. -/
def walk (files : Files) (path : String) (names : List String) : List Found :=
  match files.root.at? names with
  | some (.directory entries) =>
    let own := Level.ofDirectory names.length (.directory entries)
    walkEntries (own :: levelsAbove files.root names) path names entries
  | _ => []

end FunctionMeter.Ignore
