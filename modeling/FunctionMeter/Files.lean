import FunctionMeter.Path
import FunctionMeter.Tree.Node

/-!
# File trees

The files that commands work on, as a value. Besides its content a source file may carry its syntax
tree. Paths are resolved step by step, as a file system does: every step but the last has to lead
through a directory.
-/

namespace FunctionMeter

inductive Content where
  | text (value : String)
  | bytes (value : List UInt8)
  deriving Repr, Inhabited

namespace Content

/-- The content as text, if it is UTF-8. -/
def text? : Content → Option String
  | .text value => some value
  | .bytes value => String.fromUTF8? ⟨value.toArray⟩

/-- The lines of the content up to the first that is not UTF-8, without line endings. -/
def readableLines : Content → List String
  | .text value => strip (value.toList.splitOn '\n')
  | .bytes value => strip (decode (value.splitOn 10))
where
  decode : List (List UInt8) → List (List Char)
    | [] => []
    | line :: rest =>
      match String.fromUTF8? ⟨line.toArray⟩ with
      | some line => line.toList :: decode rest
      | none => []
  strip (lines : List (List Char)) : List String :=
    lines.map fun line =>
      String.ofList (if line.getLast? = some '\r' then line.dropLast else line)

end Content

inductive Entry where
  | file (content : Content) (root : Option Node)
  | directory (entries : List (String × Entry))
  deriving Repr, Inhabited

namespace Entry

def isFile : Entry → Bool
  | .file _ _ => true
  | .directory _ => false

def isDirectory (e : Entry) : Bool := !e.isFile

def child? (e : Entry) (name : String) : Option Entry :=
  match e with
  | .directory entries => entries.lookup name
  | .file _ _ => none

/-- The entry that names lead to. -/
def at? (e : Entry) : List String → Option Entry
  | [] => some e
  | name :: rest => (e.child? name).bind (·.at? rest)

/-- Puts an entry in the place of the one with its name, or at the end. -/
def replace (name : String) (entry : Entry) : List (String × Entry) → List (String × Entry)
  | [] => [(name, entry)]
  | (n, e) :: rest => if n = name then (n, entry) :: rest else (n, e) :: replace name entry rest

/-- Puts an entry where names lead, making the directories on the way. A file on the way gives way
to a directory. -/
def insert (e entry : Entry) : List String → Entry
  | [] =>
    match entry, e with
    | .directory [], .directory entries => .directory entries
    | entry, _ => entry
  | name :: rest =>
    let entries := match e with
      | .directory entries => entries
      | .file _ _ => []
    let child := (entries.lookup name).getD (.directory [])
    .directory (replace name (insert child entry rest) entries)

end Entry

/-- A file tree with a current directory. -/
structure Files where
  root : Entry
  current : List String
  deriving Repr, Inhabited

namespace Files

/-- Follows the pieces of a path from a directory, given by the names that lead to it. -/
def follow (root : Entry) (names : List String) : List String → Option (List String)
  | [] => some names
  | piece :: rest =>
    match root.at? names with
    | some (.directory entries) =>
      if piece = "" ∨ piece = "." then follow root names rest
      else if piece = ".." then follow root names.dropLast rest
      else if (entries.lookup piece).isSome then follow root (names ++ [piece]) rest
      else none
    | _ => none

/-- The names that lead from the root to what a path stands for, if it exists. -/
def resolve? (files : Files) (path : String) : Option (List String) :=
  if path = "" then none
  else follow files.root (if Path.isAbsolute path then [] else files.current) (Path.pieces path)

def entry? (files : Files) (path : String) : Option Entry :=
  (files.resolve? path).bind files.root.at?

/-- The text of a file. -/
def readText? (files : Files) (path : String) : Option String :=
  match files.entry? path with
  | some (.file content _) => content.text?
  | _ => none

/-- Writes a file into a directory given by its names. A directory cannot be written over. -/
def write? (files : Files) (directory : List String) (name : String) (text : String) :
    Option Files :=
  match files.root.at? (directory ++ [name]) with
  | some (.directory _) => none
  | _ =>
    some { files with
      root := files.root.insert (.file (.text text) none) (directory ++ [name]) }

end Files

end FunctionMeter
