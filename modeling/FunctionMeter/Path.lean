/-!
# File paths

A path is a text; what it leads to depends only on its components. Repeated slashes and inner `.`
vanish from the components, `..` stays one. Paths are sorted by their components.
-/

namespace FunctionMeter.Path

inductive Component where
  /-- The slash at the start of an absolute path. -/
  | root
  /-- A dot at the start of a relative path. -/
  | current
  | parent
  | normal (name : String)
  deriving DecidableEq, Repr, Inhabited

namespace Component

def text : Component → String
  | .root => "/"
  | .current => "."
  | .parent => ".."
  | .normal name => name

def rank : Component → Nat
  | .root => 0
  | .current => 1
  | .parent => 2
  | .normal _ => 3

/-- Components are ordered by kind, and names by their characters. -/
instance : LT Component where
  lt a b := a.rank < b.rank ∨ a.rank = b.rank ∧ a.text < b.text

instance : DecidableLT Component := fun _ _ => inferInstanceAs (Decidable (_ ∨ _))

end Component

def isAbsolute (path : String) : Bool := path.toList.head? = some '/'

/-- The pieces of a path between slashes. -/
def pieces (path : String) : List String := (path.toList.splitOn '/').map String.ofList

/-- The component of a piece behind the start of a path. -/
def inner? (piece : String) : Option Component :=
  if piece = "" ∨ piece = "." then none
  else if piece = ".." then some .parent
  else some (.normal piece)

def components (path : String) : List Component :=
  let inner := (pieces path).filterMap inner?
  if isAbsolute path then .root :: inner
  else if (pieces path).head? = some "." then .current :: inner
  else inner

/-- The components behind a common start, if the path starts with the base. -/
def below? (base path : String) : Option (List Component) :=
  let base := components base
  if base.isPrefixOf (components path) then some ((components path).drop base.length) else none

/-- Goes on from a directory by a name. -/
def join (directory name : String) : String :=
  if directory = "" || directory.toList.getLast? = some '/' then directory ++ name
  else directory ++ "/" ++ name

/-- The name of a file: the last component, if it is an ordinary one. -/
def fileName? (path : String) : Option String :=
  match (components path).getLast? with
  | some (.normal name) => some name
  | _ => none

/-- What follows the last dot of a name, unless that dot is the first character. -/
def nameExtension? (name : String) : Option String :=
  let reversed := name.toList.reverse
  let extension := (reversed.takeWhile (· != '.')).reverse
  match reversed.dropWhile (· != '.') with
  | '.' :: _ :: _ => some (String.ofList extension)
  | _ => none

def extension? (path : String) : Option String := (fileName? path).bind nameExtension?

/-- An absolute path written from its names. -/
def absolute (names : List String) : String :=
  if names.isEmpty then "/" else String.join (names.map ("/" ++ ·))

end FunctionMeter.Path
