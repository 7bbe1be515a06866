import FunctionMeter.Config.Basic
import FunctionMeter.Ignore.Walk
import FunctionMeter.Outline
import FunctionMeter.Provider
import FunctionMeter.Report.Render
import FunctionMeter.Text.Case

/-!
# Commands

The analyze command measures files and the files below directories and reports on them. Files that
are named have to be of a supported language, files that are found are passed over if they are not.
A file that cannot be read as text is left out.

The init command writes a configuration file to start from into a directory. A file that is already
there is written over only if asked for.
-/

namespace FunctionMeter.Command

/-- Why a command fails. -/
inductive Failure where
  | noSuchPath (path : String)
  | notDirectory (path : String)
  | unsupported (path : String)
  | notSingle
  | unreadable (path : String)
  | invalidSymbols (path : String)
  | unwritable (path : String)
  /-- A line number is too large to count from one. -/
  | overflow
  deriving DecidableEq, Repr

namespace Failure

def message : Failure → String
  | .noSuchPath path => "Path does not exist: " ++ path
  | .notDirectory path => "Path is not a directory: " ++ path
  | .unsupported path => "Unsupported file type: " ++ path ++ " (supported extensions: " ++
      ", ".intercalate Language.extensions ++ ")"
  | .notSingle => "--symbols requires exactly one source file"
  | .unreadable path => "Failed to read " ++ path
  | .invalidSymbols path => "Invalid symbols in " ++ path
  | .unwritable path => "Failed to write " ++ path
  | .overflow => "attempt to add with overflow"

end Failure

/-! ## Analyze -/

/-- The language of a file, by the extension of its path. -/
def languageOf (path : String) : Option Language :=
  (Path.extension? path).bind fun e => Language.ofExtension? (Text.lower e)

/-- A file to measure: its path as it is shown, and the names that lead to it. -/
abbrev Target := Ignore.Found

/-- The targets that one path stands for. -/
def targets (files : Files) (path : String) : Except Failure (List Target) :=
  match files.resolve? path with
  | none => .error (.noSuchPath path)
  | some names =>
    match files.root.at? names with
    | some (.file _ _) =>
      if (languageOf path).isSome then .ok [⟨path, names⟩] else .error (.unsupported path)
    | _ => .ok ((Ignore.walk files path names).filter fun t => (languageOf t.path).isSome)

/-- Targets in the order of their components; several spellings of one path keep their order. -/
def sortByPath (targets : List Target) : List Target :=
  targets.mergeSort fun a b => !(Path.components b.path < Path.components a.path)

/-- Keeps of neighbours that spell one path the first. -/
def dropRespelled (targets : List Target) : List Target :=
  targets.eraseRepsBy fun a b => Path.components a.path = Path.components b.path

/-- The files that paths stand for, each spelled in one way. -/
def collect (files : Files) (paths : List String) : Except Failure (List Target) := do
  let lists ← paths.mapM (targets files)
  .ok (dropRespelled (sortByPath lists.flatten))

/-- The document of a file, named by its resolved path. -/
def document (names : List String) (text : String) : Document := ⟨Uri.ofFilePath names, 0, text⟩

/-- Measures a file by its syntax tree; nothing if its language is not supported. -/
def measureTarget (files : Files) (t : Target) : Option MeasuredFile :=
  match files.root.at? t.names with
  | some (.file content (some root)) => do
    let text ← content.text?
    let d := document t.names text
    let symbols ← d.symbols? root
    some ⟨t.path, (languageOf t.path).map Language.name, Metric.ofSymbols d.lines symbols⟩
  | _ => none

/-- The measured files in the order of their paths. -/
def measurePaths (files : Files) (paths : List String) : Except Failure (List MeasuredFile) := do
  let targets ← collect files paths
  let measured := targets.filterMap (measureTarget files)
  .ok (measured.mergeSort fun a b => !(b.path < a.path))

/-- Measures one file by symbols that were written down elsewhere. -/
def measureBySymbols (files : Files) (paths : List String) (symbolsPath : String) :
    Except Failure MeasuredFile :=
  match paths with
  | [path] =>
    match files.readText? symbolsPath with
    | none => .error (.unreadable symbolsPath)
    | some json =>
      match Outline.read json with
      | .error _ => .error (.invalidSymbols symbolsPath)
      | .ok symbols =>
        match files.resolve? path, files.readText? path with
        | some names, some text =>
          let d := document names text
          .ok ⟨path, (languageOf path).map Language.name, Metric.ofSymbols d.lines symbols⟩
        | _, _ => .error (.unreadable path)
  | _ => .error .notSingle

/-- The report that the command writes. -/
def analyze (files : Files) (coloured : Bool) (paths : List String) (format : Format)
    (symbols : Option String) (minimum : Category) : Except Failure String := do
  let measured ← match symbols with
    | some symbolsPath => (measureBySymbols files paths symbolsPath).map ([·])
    | none => measurePaths files paths
  match Report.build? measured minimum with
  | some report => .ok (report.render coloured format)
  | none => .error .overflow

/-! ## Init -/

/-- What the command prints, and the files after it. -/
def init (files : Files) (coloured : Bool) (path : String) (force : Bool) :
    Except Failure (String × Files) :=
  match files.resolve? path with
  | none => .error (.noSuchPath path)
  | some names =>
    match files.root.at? names with
    | some (.directory entries) =>
      let target := Path.join (Path.absolute names) Config.fileName
      let shown := Style.cyan.apply coloured target
      if (entries.lookup Config.fileName).isSome && !force then
        .ok (Style.dim.apply coloured "•" ++ " " ++ shown ++
          " already exists (use --force to overwrite)\n", files)
      else
        match files.write? names Config.fileName Config.starter with
        | some files => .ok (Style.green.apply coloured "✓" ++ " Created " ++ shown ++ "\n", files)
        | none => .error (.unwritable target)
    | _ => .error (.notDirectory (Path.absolute names))

end FunctionMeter.Command
