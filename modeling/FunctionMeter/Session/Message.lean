import FunctionMeter.Document.Basic
import FunctionMeter.Session.Shape

/-!
# Messages of an editor

A message names a method and may carry parameters. A request has an identifier and wants an answer,
a notification has none.
-/

namespace FunctionMeter

structure Message where
  /-- The identifier of a request. -/
  request : Option Nat
  method : String
  params : Option Json
  deriving Repr

/-- Why a request is refused. -/
inductive RequestError where
  | unknownMethod
  | invalidParams
  | unknownCommand (command : String)
  | invalidRequest
  | notStarted
  | calledOff
  deriving DecidableEq, Repr

namespace RequestError

def code : RequestError → Int
  | .unknownMethod => -32601
  | .invalidParams | .unknownCommand _ => -32602
  | .invalidRequest => -32600
  | .notStarted => -32002
  | .calledOff => -32800

/-- The wording of an error; that of malformed parameters is left open. -/
def message? : RequestError → Option String
  | .unknownMethod => some "Method not found"
  | .invalidParams => none
  | .unknownCommand command => some ("unknown command '" ++ command ++ "'")
  | .invalidRequest => some "Invalid request"
  | .notStarted => some "Server not initialized"
  | .calledOff => some "Canceled"

end RequestError

/-- What the server needs to know to start. -/
structure Introduction where
  /-- The folder that the editor works in. -/
  root : Option Uri
  /-- The configuration that the editor sends along. -/
  options : Option Json
  refreshes : Bool
  deriving Repr

namespace Introduction

/-- A group of abilities, empty if it is missing. -/
def group? (abilities : Json) (name : String) : Option Json :=
  match abilities with
  | .obj groups =>
    match groups.lookup name with
    | none | some .null => some (.obj [])
    | some (.obj group) => some (.obj group)
    | some _ => none
  | _ => none

/-- The groups of abilities that make no difference here. -/
def otherGroups : List String := ["textDocument", "window", "general"]

/-- Whether an editor with the given abilities wants to hear that hints have changed. -/
def refreshes? (abilities : Json) : Option Bool := do
  let _ ← otherGroups.mapM (group? abilities)
  let workspace ← group? abilities "workspace"
  match workspace.member? "inlayHint" with
  | none | some .null => some false
  | some hints =>
    let fields ← hints.fields? ["refreshSupport"]
    some ((← fields.optional "refreshSupport" Json.bool?).getD false)

def folder? (j : Json) : Option Uri := do
  let fields ← j.fields? ["uri", "name"]
  let uri ← fields.required "uri" Uri.ofJson?
  let _ ← fields.required "name" Json.string?
  some uri

def fieldNames : List String :=
  ["processId", "rootPath", "rootUri", "initializationOptions", "capabilities", "trace",
    "workspaceFolders", "clientInfo", "locale"]

/-- The name and the version of an editor, which are checked and not used. -/
def client? (j : Json) : Option Unit := do
  let fields ← j.fields? ["name", "version"]
  let _ ← fields.required "name" Json.string?
  let _ ← fields.optional "version" Json.string?
  some ()

def traces : List (String × Unit) := [("off", ()), ("messages", ()), ("verbose", ())]

def ofJson? (j : Json) : Option Introduction := do
  let fields ← j.fields? fieldNames
  let _ ← fields.optional "processId" Json.word?
  let _ ← fields.optional "rootPath" Json.string?
  let rootUri ← fields.optional "rootUri" Uri.ofJson?
  let options ← fields.optional "initializationOptions" some
  let refreshes ← fields.required "capabilities" refreshes?
  let _ ← fields.optional "trace" (Json.variant? traces)
  let folders ← fields.optional "workspaceFolders" (Json.list? folder?)
  let _ ← fields.optional "clientInfo" client?
  let _ ← fields.optional "locale" Json.string?
  some { root := (folders.bind List.head?).or rootUri, options, refreshes }

end Introduction

/-! ## Parameters -/

namespace Params

def opened? (j : Json) : Option Document := do
  let fields ← j.fields? ["textDocument"]
  let item ← fields.required "textDocument" (Json.fields? ["uri", "languageId", "version", "text"])
  let uri ← item.required "uri" Uri.ofJson?
  let _ ← item.required "languageId" Json.string?
  let version ← item.required "version" Json.int32?
  let text ← item.required "text" Json.string?
  some ⟨uri, version, text⟩

def changed? (j : Json) : Option (Uri × List Change × Int32) := do
  let fields ← j.fields? ["textDocument", "contentChanges"]
  let item ← fields.required "textDocument" (Json.fields? ["uri", "version"])
  let uri ← item.required "uri" Uri.ofJson?
  let version ← item.required "version" Json.int32?
  let changes ← fields.required "contentChanges" (Json.list? Change.ofJson?)
  some (uri, changes, version)

/-- The name of a document that is all a record tells of it. -/
def documentName? (j : Json) : Option Uri := do
  let fields ← j.fields? ["uri"]
  fields.required "uri" Uri.ofJson?

def closed? (j : Json) : Option Uri := do
  let fields ← j.fields? ["textDocument"]
  fields.required "textDocument" documentName?

def focused? (j : Json) : Option (Option Uri) := do
  let fields ← j.fields? ["uri"]
  fields.withDefault "uri" (Json.nullable? Uri.ofJson?) none

def workDone? (fields : Json.Fields) : Option Unit := do
  let _ ← fields.optional "workDoneToken" fun j => if Shape.token j then some () else none
  some ()

def hinted? (j : Json) : Option (Uri × Range) := do
  let fields ← j.objectFields? ["workDoneToken", "textDocument", "range"]
  workDone? fields
  let uri ← fields.required "textDocument" documentName?
  let range ← fields.required "range" Range.ofJson?
  some (uri, range)

/-- The command to execute; its arguments are checked and not used. -/
def command? (j : Json) : Option String := do
  let fields ← j.objectFields? ["workDoneToken", "command", "arguments"]
  workDone? fields
  let command ← fields.required "command" Json.string?
  let _ ← fields.withDefault "arguments" (Json.list? some) []
  some command

def calledOff? (j : Json) : Option Nat := do
  let fields ← j.fields? ["id"]
  fields.required "id" Json.nat?

end Params

/-! ## Methods -/

/-- The methods that the server knows. -/
inductive Method where
  | start
  | stop
  | exit
  | callOff
  | opened
  | changed
  | closed
  | focused
  | hints
  | execute
  /-- A request that is known and not served. -/
  | unserved (shape : Shape)
  /-- A notification that is known and has no effect. -/
  | unheeded

namespace Method

def names : List (String × Method) :=
  [("initialize", .start), ("shutdown", .stop), ("exit", .exit), ("$/cancelRequest", .callOff),
    ("textDocument/didOpen", .opened), ("textDocument/didChange", .changed),
    ("textDocument/didClose", .closed), ("funcloc/didChangeActiveEditor", .focused),
    ("textDocument/inlayHint", .hints), ("workspace/executeCommand", .execute)]

def ofName? (name : String) : Option Method :=
  match names.lookup name with
  | some method => some method
  | none =>
    if Shape.unheeded.contains name then some .unheeded
    else (Shape.unserved.lookup name).map .unserved

/-- Whether a method is called by notifications. -/
def isNotification : Method → Bool
  | .exit | .callOff | .opened | .changed | .closed | .focused | .unheeded => true
  | .start | .stop | .hints | .execute | .unserved _ => false

end Method

end FunctionMeter
