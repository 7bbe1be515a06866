import FunctionMeter.Report.Render

/-!
# Command line arguments

Arguments are read from left to right. An option keeps its value pending until the next option or
positional argument, so that a wrong value is noticed only then. A subcommand is read before the
pending value of the options before it is looked at.
-/

namespace FunctionMeter.Command

/-- Why arguments are not accepted. Requests for help or the version count as reasons. -/
inductive Refusal where
  | help
  | version
  | noArguments
  | missingSubcommand
  | invalidSubcommand
  | unknownArgument
  | invalidValue
  /-- A value that is not of the form that its option needs. -/
  | invalidForm (message : String)
  | repeated
  | unexpectedValue
  deriving DecidableEq, Repr

inductive Subcommand where
  | serve
  | analyze
  | watch
  | init
  deriving DecidableEq, Repr

/-- Options that take a value. -/
inductive Setting where
  | logLevel
  | format
  | symbols
  | minCategory
  deriving DecidableEq, Repr

/-- Options that take none. -/
inductive Switch where
  | force
  | help
  | version
  deriving DecidableEq, Repr

/-- What is accepted behind a subcommand, or before it if there is none. -/
abbrev Scope := Option Subcommand

def subcommands : List (String × Subcommand) :=
  [("serve", .serve), ("analyze", .analyze), ("watch", .watch), ("init", .init)]

def longSettings : Scope → List (String × Setting)
  | some .analyze =>
    [("log-level", .logLevel), ("format", .format), ("symbols", .symbols),
      ("min-category", .minCategory)]
  | _ => [("log-level", .logLevel)]

def shortSettings : Scope → List (Char × Setting)
  | some .analyze => [('f', .format)]
  | _ => []

def longSwitches : Scope → List (String × Switch)
  | none => [("help", .help), ("version", .version)]
  | some .init => [("force", .force), ("help", .help)]
  | _ => [("help", .help)]

def shortSwitches : Scope → List (Char × Switch)
  | none => [('h', .help), ('V', .version)]
  | _ => [('h', .help)]

/-- How many positional arguments a scope takes, if there is a limit. -/
def positionalLimit : Scope → Option Nat
  | some .analyze => none
  | some .watch => some 1
  | some .init => some 1
  | _ => some 0

def logLevels : List String := ["error", "warn", "info", "debug", "trace"]

/-- The values that have been looked at and accepted. -/
structure Accepted where
  logLevel : Option String := none
  format : Option Format := none
  symbols : Option String := none
  minCategory : Option Category := none
  force : Bool := false
  paths : List String := []
  deriving Repr, Inhabited

/-- Values that wait to be looked at. -/
inductive Pending where
  | nothing
  /-- An option, and its value if it has come. -/
  | setting (option : Setting) (value : Option String)
  | paths (paths : List String)
  deriving Repr, Inhabited

structure Progress where
  accepted : Accepted := {}
  pending : Pending := .nothing
  /-- Whether `--` has come, behind which everything is positional. -/
  positionalOnly : Bool := false
  deriving Repr, Inhabited

namespace Progress

/-- Whether the next argument is the value of an option. -/
def awaitsValue (p : Progress) : Bool :=
  match p.pending with
  | .setting _ none => !p.positionalOnly
  | _ => false

end Progress

/-- A path must not be empty. -/
def checkPath (path : String) : Except Refusal String :=
  if path = "" then .error .invalidValue else .ok path

/-- Accepts the value of an option that has none yet. -/
def acceptSetting (a : Accepted) (option : Setting) (value : String) : Except Refusal Accepted :=
  match option with
  | .logLevel =>
    if a.logLevel.isSome then .error .repeated
    else if logLevels.contains value then .ok { a with logLevel := some value }
    else .error .invalidValue
  | .format =>
    if a.format.isSome then .error .repeated
    else
      match Format.parse value with
      | .ok format => .ok { a with format := some format }
      | .error message => .error (.invalidForm message)
  | .symbols =>
    if a.symbols.isSome then .error .repeated
    else (checkPath value).map fun path => { a with symbols := some path }
  | .minCategory =>
    if a.minCategory.isSome then .error .repeated
    else
      match Category.parse value with
      | .ok category => .ok { a with minCategory := some category }
      | .error message => .error (.invalidForm message)

/-- Looks at the values that wait. -/
def settle (p : Progress) : Except Refusal Progress :=
  match p.pending with
  | .nothing => .ok p
  | .setting _ none => .error .invalidValue
  | .setting option (some value) => do
    let accepted ← acceptSetting p.accepted option value
    .ok { p with accepted, pending := .nothing }
  | .paths paths => do
    let paths ← paths.mapM checkPath
    .ok { p with
      accepted := { p.accepted with paths := p.accepted.paths ++ paths }, pending := .nothing }

def acceptSwitch (p : Progress) (switch : Switch) : Except Refusal Progress := do
  let p ← settle p
  match switch with
  | .help => .error .help
  | .version => .error .version
  | .force =>
    if p.accepted.force then .error .repeated
    else .ok { p with accepted := { p.accepted with force := true } }

/-- An option, with the value attached to it if there is one. -/
def takeSetting (p : Progress) (option : Setting) (value : Option String) :
    Except Refusal Progress := do
  let p ← settle p
  match value with
  | some value =>
    let accepted ← acceptSetting p.accepted option value
    .ok { p with accepted }
  | none => .ok { p with pending := .setting option none }

/-- An argument that starts with two dashes. -/
def takeLong (scope : Scope) (p : Progress) (body : List Char) : Except Refusal Progress :=
  let name := String.ofList (body.takeWhile (· != '='))
  let value := match body.dropWhile (· != '=') with
    | _ :: value => some (String.ofList value)
    | [] => none
  match (longSettings scope).lookup name, (longSwitches scope).lookup name with
  | some option, _ => takeSetting p option value
  | none, some switch => if value.isSome then .error .unexpectedValue else acceptSwitch p switch
  | none, none => .error .unknownArgument

/-- The letters of an argument that starts with one dash. What follows the letter of an option is
its value. -/
def takeShort (scope : Scope) (p : Progress) : List Char → Except Refusal Progress
  | [] => .ok p
  | c :: rest =>
    match (shortSettings scope).lookup c, (shortSwitches scope).lookup c with
    | some option, _ =>
      let value := match rest with
        | [] => none
        | '=' :: value => some (String.ofList value)
        | value => some (String.ofList value)
      takeSetting p option value
    | none, some switch => do
      let p ← acceptSwitch p switch
      takeShort scope p rest
    | none, none => .error .unknownArgument

/-- A positional argument. -/
def takePositional (scope : Scope) (p : Progress) (arg : String) : Except Refusal Progress := do
  let waiting := match p.pending with
    | .paths paths => paths
    | _ => []
  match positionalLimit scope with
  | none =>
    if waiting.isEmpty then
      let p ← settle p
      .ok { p with pending := .paths [arg] }
    else .ok { p with pending := .paths (waiting ++ [arg]) }
  | some limit =>
    if p.accepted.paths.length + waiting.length < limit then
      let p ← settle p
      .ok { p with pending := .paths [arg] }
    else .error (if scope.isNone then .invalidSubcommand else .unknownArgument)

/-- One argument of a scope. -/
def takeArgument (scope : Scope) (p : Progress) (arg : String) : Except Refusal Progress :=
  if p.positionalOnly then takePositional scope p arg
  else
    match arg.toList with
    | ['-', '-'] => .ok { p with positionalOnly := true }
    | '-' :: '-' :: body => takeLong scope p body
    | '-' :: c :: letters => takeShort scope p (c :: letters)
    | _ =>
      match p.pending with
      | .setting option none => .ok { p with pending := .setting option (some arg) }
      | _ => takePositional scope p arg

/-- The arguments behind a subcommand. -/
def takeArguments (scope : Scope) (p : Progress) : List String → Except Refusal Progress
  | [] => settle p
  | arg :: rest => do
    let p ← takeArgument scope p arg
    takeArguments scope p rest

/-- What the arguments ask for. -/
inductive Request where
  | serve
  | analyze (paths : List String) (format : Format) (symbols : Option String)
      (minCategory : Category)
  | watch (path : String)
  | init (path : String) (force : Bool)
  deriving DecidableEq, Repr

structure Arguments where
  logLevel : String
  request : Request
  deriving DecidableEq, Repr

def request (subcommand : Subcommand) (a : Accepted) : Request :=
  let path := a.paths.head?.getD "."
  match subcommand with
  | .serve => .serve
  | .analyze =>
    .analyze (if a.paths.isEmpty then ["."] else a.paths) (a.format.getD .text) a.symbols
      (a.minCategory.getD .low)
  | .watch => .watch path
  | .init => .init path a.force

/-- What `help` answers about the names behind it: only one known name may stand there. -/
def helpAbout : List String → Refusal
  | [] => .help
  | [name] =>
    if name = "help" || (subcommands.lookup name).isSome then .help else .invalidSubcommand
  | _ => .invalidSubcommand

/-- Reads arguments up to the subcommand, then those behind it. -/
def parseFrom (p : Progress) : List String → Except Refusal Arguments
  | [] => do
    let p ← settle p
    .error (if p.accepted.logLevel.isSome then .missingSubcommand else .noArguments)
  | arg :: rest =>
    if !p.positionalOnly && !p.awaitsValue then
      if arg = "help" then .error (helpAbout rest)
      else
        match subcommands.lookup arg with
        | some subcommand => do
          let inner ← takeArguments (some subcommand) {} rest
          let outer ← settle p
          let level := inner.accepted.logLevel.getD (outer.accepted.logLevel.getD "warn")
          .ok ⟨level, request subcommand inner.accepted⟩
        | none => do
          let p ← takeArgument none p arg
          parseFrom p rest
    else if p.positionalOnly then
      .error (if arg = "help" || (subcommands.lookup arg).isSome then .unknownArgument
        else .invalidSubcommand)
    else do
      let p ← takeArgument none p arg
      parseFrom p rest

/-- Reads the arguments of a call. -/
def parse (args : List String) : Except Refusal Arguments := parseFrom {} args

end FunctionMeter.Command
