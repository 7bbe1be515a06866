import FunctionMeter.Command.Args
import FunctionMeter.Command.Basic
import FunctionMeter.Json.Reader

/-!
# The command line

Loads the files that a command works on, runs the command on them and prints what it yields. The
syntax tree of a source file is read from a file beside it, as parsers write it.
-/

namespace FunctionMeter.CommandLine

/-- What follows the name of a source file in the name of the file with its syntax tree. -/
def treeEnding : String := ".tree.json"

def readTree (path : String) : IO (Option Node) := do
  try
    let text ← IO.FS.readFile (path ++ treeEnding)
    pure ((Json.read? text.length text).bind Node.ofJson?)
  catch _ => pure none

def readSource (path : String) : IO Entry := do
  let bytes ← IO.FS.readBinFile path
  let content := match String.fromUTF8? bytes with
    | some text => Content.text text
    | none => Content.bytes bytes.toList
  pure (.file content (← readTree path))

/-- Reads what is at a path. Directories are read as deep as `fuel` allows, and what cannot be read
is left out. -/
def readEntry (fuel : Nat) (path : String) : IO (Option Entry) := do
  match fuel with
  | 0 => pure none
  | fuel + 1 =>
    let place := (← IO.currentDir) / path
    if ← place.isDir then
      let children ← (← place.readDir).toList.mapM fun child => do
        let entry ← readEntry fuel (Path.join path child.fileName)
        pure (entry.map (child.fileName, ·))
      pure (some (.directory (children.filterMap id)))
    else
      try pure (some (← readSource path)) catch _ => pure none

/-- How deep directories are read. -/
def maxDepth : Nat := 64

def namesOf (path : String) : List String := (Path.pieces path).filter (· ≠ "")

/-- The files that paths stand for, with the current directory. -/
def load (paths : List String) : IO Files := do
  let current := namesOf (← IO.currentDir).toString
  let mut root := Entry.insert (.directory []) (.directory []) current
  for path in paths do
    try
      let place ← IO.FS.realPath path
      match ← readEntry maxDepth place.toString with
      | some entry => root := root.insert entry (namesOf place.toString)
      | none => pure ()
    catch _ => pure ()
  pure ⟨root, current⟩

/-- Writes the configuration file that a command has put into a directory. -/
def save (files : Files) (path : String) : IO Unit := do
  match files.readText? (Path.join path Config.fileName) with
  | some text => IO.FS.writeFile (Path.join path Config.fileName) text
  | none => pure ()

def fail (message : String) : IO UInt32 := do
  IO.eprintln ("Error: " ++ message)
  pure 1

def explain : Command.Refusal → String
  | .help | .version | .noArguments | .missingSubcommand =>
    "usage: funcloc [--log-level LEVEL] serve|analyze|watch|init ..."
  | .invalidSubcommand => "unrecognized subcommand"
  | .unknownArgument => "unexpected argument"
  | .invalidValue => "invalid value"
  | .invalidForm message => message
  | .repeated => "an option is given twice"
  | .unexpectedValue => "an option takes no value"

def execute (coloured : Bool) : Command.Request → IO UInt32
  | .analyze paths format symbols minimum => do
    let files ← load (paths ++ symbols.toList)
    match Command.analyze files coloured paths format symbols minimum with
    | .ok output => IO.print output; pure 0
    | .error reason => fail reason.message
  | .init path force => do
    let files ← load [path]
    match Command.init files coloured path force with
    | .ok (output, files) => save files path; IO.print output; pure 0
    | .error reason => fail reason.message
  | .serve | .watch _ => fail "this command needs an editor or a watched directory"

end FunctionMeter.CommandLine

open FunctionMeter in
def main (args : List String) : IO UInt32 := do
  match Command.parse args with
  | .ok arguments => CommandLine.execute (← (← IO.getStdout).isTty) arguments.request
  | .error reason => IO.eprintln (CommandLine.explain reason); pure 2
