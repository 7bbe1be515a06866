import FunctionMeter.Files
import FunctionMeter.Ignore.Glob
import FunctionMeter.Text.Basic

/-!
# Ignore rules

An ignore file holds a glob on each line. Of the rules of a file that match a path the last decides,
and a rule behind an exclamation mark keeps what others ignore. Rules are matched against the path
below the directory of their file.
-/

namespace FunctionMeter.Ignore

structure Rule where
  keeps : Bool
  onlyDirectories : Bool
  globs : List (List Token)
  deriving DecidableEq, Repr, Inhabited

inductive Verdict where
  | undecided
  | ignored
  | kept
  deriving DecidableEq, Repr, Inhabited

namespace Verdict

def orElse (first second : Verdict) : Verdict :=
  match first with
  | .undecided => second
  | decided => decided

end Verdict

/-- Drops blanks at the end of a line, unless the last is escaped. -/
def trimRule (line : List Char) : List Char :=
  if line.reverse.take 2 = [' ', '\\'] then line else Text.trimEnd line

/-- Divides off a last slash, by which a rule is for directories only. An escape before the slash
goes with it. -/
def splitSlash (line : List Char) : Bool × List Char :=
  if line.getLast? = some '/' then
    let line := line.dropLast
    (true, if line.getLast? = some '\\' then line.dropLast else line)
  else (false, line)

/-- The glob of a rule. A rule without a slash inside holds at every depth, and one that ends in two
stars does not hold of the directory before them. -/
def ruleGlob (anchored : Bool) (line : List Char) : List Char :=
  let everywhere := !anchored && !line.contains '/' && line ≠ ['*', '*']
  let glob := if everywhere then '*' :: '*' :: '/' :: line else line
  if glob.reverse.take 3 = ['*', '*', '/'] then glob ++ ['/', '*'] else glob

/-- The rule on a line; comments, empty lines and malformed globs are no rules. -/
def rule? (line : List Char) : Option Rule :=
  if line.head? = some '#' then none
  else
    let line := trimRule line
    if line.isEmpty then none
    else
      let (keeps, anchored, line) := match line with
        | '\\' :: '!' :: rest => (false, false, '!' :: rest)
        | '\\' :: '#' :: rest => (false, false, '#' :: rest)
        | '!' :: '/' :: rest => (true, true, rest)
        | '!' :: rest => (true, false, rest)
        | '/' :: rest => (false, true, rest)
        | line => (false, false, line)
      let (onlyDirectories, line) := splitSlash line
      (glob? (ruleGlob anchored line)).map fun globs => ⟨keeps, onlyDirectories, globs⟩

/-- The rules of an ignore file, before which a byte order mark may stand. -/
def rules (lines : List String) : List Rule :=
  match lines.map String.toList with
  | [] => []
  | first :: rest => (first.dropWhile (· == '\ufeff') :: rest).filterMap rule?

def Rule.applies (rule : Rule) (path : List UInt8) (isDirectory : Bool) : Bool :=
  (!rule.onlyDirectories || isDirectory) && rule.globs.any (matchesGlob · path)

/-- What the rules of one file decide: the last that applies. -/
def verdict (rules : List Rule) (path : List UInt8) (isDirectory : Bool) : Verdict :=
  match rules.reverse.find? (·.applies path isDirectory) with
  | some rule => if rule.keeps then .kept else .ignored
  | none => .undecided

/-- The rules that a directory adds. -/
structure Level where
  /-- How many names lead to the directory. -/
  depth : Nat
  general : List Rule
  repository : List Rule
  excluded : List Rule
  /-- Whether the directory is the top of a repository. -/
  isRepository : Bool
  deriving Repr, Inhabited

namespace Level

def fileRules (directory : Entry) (names : List String) : List Rule :=
  match directory.at? names with
  | some (.file content _) => rules content.readableLines
  | _ => []

def ofDirectory (depth : Nat) (directory : Entry) : Level :=
  { depth
    general := fileRules directory [".ignore"]
    repository := fileRules directory [".gitignore"]
    excluded := fileRules directory [".git", "info", "exclude"]
    isRepository := (directory.child? ".git").isSome }

end Level

/-- The bytes of a path below a directory with `depth` names. -/
def relativeBytes (depth : Nat) (names : List String) : List UInt8 :=
  ("/".intercalate (names.drop depth)).toUTF8.data.toList

/-- The levels up to the top of the repository, the deepest first. -/
def withinRepository : List Level → List Level
  | [] => []
  | level :: rest => if level.isRepository then [level] else level :: withinRepository rest

/-- What the levels above an entry decide, given the deepest first. Deeper rules win; general rules
win over those of a repository, which count only inside one. -/
def decide (levels : List Level) (names : List String) (isDirectory : Bool) : Verdict :=
  let first (select : Level → List Rule) (levels : List Level) : Verdict :=
    levels.foldl (fun v level =>
      v.orElse (verdict (select level) (relativeBytes level.depth names) isDirectory)) .undecided
  let inside := if levels.any (·.isRepository) then withinRepository levels else []
  ((first Level.general levels).orElse (first Level.repository inside)).orElse
    (first Level.excluded inside)

/-- Whether a walk passes over an entry: if rules ignore it, or if it is hidden and no rule keeps
it. -/
def isSkipped (levels : List Level) (names : List String) (isDirectory : Bool) : Bool :=
  match decide levels names isDirectory with
  | .ignored => true
  | .kept => false
  | .undecided => (names.getLast?.getD "").toList.head? = some '.'

end FunctionMeter.Ignore
