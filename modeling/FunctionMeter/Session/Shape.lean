import FunctionMeter.Json.Decode
import FunctionMeter.Position
import FunctionMeter.Uri.Basic

/-!
# Shapes of parameters

The editor's protocol has many requests that this server leaves to others. Their parameters are
still checked, so that an editor learns of a malformed request before it learns of a missing
feature.
-/

namespace FunctionMeter

/-- A test for values of one form. -/
abbrev Shape := Json → Bool

namespace Shape

def anything : Shape := fun _ => true

def flag : Shape := fun j => j.bool?.isSome

def text : Shape := fun j => j.string?.isSome

def word : Shape := fun j => j.word?.isSome

def int32 : Shape := fun j => j.int32?.isSome

def number : Shape
  | .int _ | .real _ => true
  | _ => false

def uri : Shape := fun j => (Uri.ofJson? j).isSome

def position : Shape := fun j => (Position.ofJson? j).isSome

def range : Shape := fun j => (Range.ofJson? j).isSome

def either (a b : Shape) : Shape := fun j => a j || b j

def list (item : Shape) : Shape
  | .arr items => items.all item
  | _ => false

def orNull (shape : Shape) : Shape
  | .null => true
  | j => shape j

/-- Whether fields are there in their shapes. An optional field may be missing or `null`. -/
def holds (fields : Json.Fields) (required optional : List (String × Shape)) : Bool :=
  required.all (fun (name, shape) => (fields.get? name).any shape) &&
    optional.all fun (name, shape) =>
      match fields.get? name with
      | some value => orNull shape value
      | none => !fields.positional

/-- A record that is written as an object. -/
def object (required : List (String × Shape)) (optional : List (String × Shape) := []) : Shape :=
  fun j =>
    match j.objectFields? ((required ++ optional).map (·.1)) with
    | some fields => holds fields required optional
    | none => false

/-- A record that is written as an object or as the array of its fields. -/
def record (required : List (String × Shape)) (optional : List (String × Shape) := []) : Shape :=
  fun j =>
    match j.fields? ((required ++ optional).map (·.1)) with
    | some fields => holds fields required optional
    | none => false

/-- The name of a piece of work, under which its progress may be told. -/
def token : Shape := either int32 text

def document : Shape := record [("uri", uri)]

def progress : List (String × Shape) := [("workDoneToken", token)]

def partialProgress : List (String × Shape) := progress ++ [("partialResultToken", token)]

/-- A place in a document. -/
def place : List (String × Shape) := [("textDocument", document), ("position", position)]

def ofDocument : List (String × Shape) := [("textDocument", document)]

def formatting : Shape :=
  object [("tabSize", word), ("insertSpaces", flag)]
    [("trimTrailingWhitespace", flag), ("insertFinalNewline", flag), ("trimFinalNewlines", flag)]

def diagnostic : Shape :=
  record [("range", range)]
    [("severity", int32), ("code", token), ("codeDescription", record [("href", uri)]),
      ("source", text)]

def hierarchyItem : Shape :=
  record [("name", text), ("kind", int32), ("uri", uri), ("range", range), ("selectionRange", range)]
    [("tags", list int32), ("detail", text), ("data", anything)]

def commandCall : Shape :=
  record [("title", text), ("command", text)] [("arguments", list anything)]

/-- The requests that the server knows and does not serve, with the parameters they take. -/
def unserved : List (String × Shape) :=
  [("textDocument/willSaveWaitUntil", record [("textDocument", document), ("reason", int32)]),
    ("textDocument/declaration", object place partialProgress),
    ("textDocument/definition", object place partialProgress),
    ("textDocument/typeDefinition", object place partialProgress),
    ("textDocument/implementation", object place partialProgress),
    ("textDocument/references",
      object (place ++ [("context", record [("includeDeclaration", flag)])]) partialProgress),
    ("textDocument/prepareCallHierarchy", object place progress),
    ("callHierarchy/incomingCalls", object [("item", hierarchyItem)] partialProgress),
    ("callHierarchy/outgoingCalls", object [("item", hierarchyItem)] partialProgress),
    ("textDocument/prepareTypeHierarchy", object place progress),
    ("typeHierarchy/supertypes", object [("item", hierarchyItem)] partialProgress),
    ("typeHierarchy/subtypes", object [("item", hierarchyItem)] partialProgress),
    ("textDocument/documentHighlight", object place partialProgress),
    ("textDocument/documentLink", object ofDocument partialProgress),
    ("documentLink/resolve",
      record [("range", range)] [("target", uri), ("tooltip", text), ("data", anything)]),
    ("textDocument/hover", object place progress),
    ("textDocument/codeLens", object ofDocument partialProgress),
    ("codeLens/resolve", record [("range", range)] [("command", commandCall), ("data", anything)]),
    ("textDocument/foldingRange", object ofDocument partialProgress),
    ("textDocument/selectionRange",
      object (ofDocument ++ [("positions", list position)]) partialProgress),
    ("textDocument/documentSymbol", object ofDocument partialProgress),
    ("textDocument/semanticTokens/full", object ofDocument partialProgress),
    ("textDocument/semanticTokens/full/delta",
      object (ofDocument ++ [("previousResultId", text)]) partialProgress),
    ("textDocument/semanticTokens/range",
      object (ofDocument ++ [("range", range)]) partialProgress),
    ("textDocument/inlineValue",
      object (ofDocument ++ [("range", range),
        ("context", record [("frameId", int32), ("stoppedLocation", range)])]) progress),
    ("inlayHint/resolve",
      record [("position", position), ("label", either text (list (record [("value", text)])))]
        [("kind", int32)]),
    ("textDocument/moniker", object place partialProgress),
    ("textDocument/completion",
      object place
        (partialProgress ++
          [("context", record [("triggerKind", int32)] [("triggerCharacter", text)])])),
    ("completionItem/resolve",
      record [("label", text)] [("kind", int32), ("detail", text), ("sortText", text)]),
    ("textDocument/diagnostic",
      object ofDocument (partialProgress ++ [("identifier", text), ("previousResultId", text)])),
    ("workspace/diagnostic",
      object [("previousResultIds", list (record [("uri", uri), ("value", text)]))]
        (partialProgress ++ [("identifier", text)])),
    ("textDocument/signatureHelp",
      object place
        (progress ++
          [("context", record [("triggerKind", int32), ("isRetrigger", flag)]
            [("triggerCharacter", text)])])),
    ("textDocument/codeAction",
      object
        (ofDocument ++ [("range", range),
          ("context", record [("diagnostics", list diagnostic)]
            [("only", list text), ("triggerKind", int32)])])
        partialProgress),
    ("codeAction/resolve", record [("title", text)] [("kind", text), ("command", commandCall)]),
    ("textDocument/documentColor", object ofDocument partialProgress),
    ("textDocument/colorPresentation",
      object
        (ofDocument ++ [("range", range),
          ("color", record [("red", number), ("green", number), ("blue", number),
            ("alpha", number)])])
        partialProgress),
    ("textDocument/formatting", object (ofDocument ++ [("options", formatting)]) progress),
    ("textDocument/rangeFormatting",
      object (ofDocument ++ [("range", range), ("options", formatting)]) progress),
    ("textDocument/onTypeFormatting", object (place ++ [("ch", text), ("options", formatting)])),
    ("textDocument/rename", object (place ++ [("newName", text)]) progress),
    ("textDocument/prepareRename", record place),
    ("textDocument/linkedEditingRange", object place progress),
    ("workspace/symbol", object [("query", text)] partialProgress),
    ("workspaceSymbol/resolve",
      record [("name", text), ("kind", int32), ("location", anything)] [("containerName", text)]),
    ("workspace/willCreateFiles", record [("files", list (record [("uri", text)]))]),
    ("workspace/willRenameFiles",
      record [("files", list (record [("oldUri", text), ("newUri", text)]))]),
    ("workspace/willDeleteFiles", record [("files", list (record [("uri", text)]))])]

/-- The notifications that the server knows and does nothing about. -/
def unheeded : List String :=
  ["initialized", "textDocument/willSave", "textDocument/didSave",
    "workspace/didChangeConfiguration", "workspace/didChangeWorkspaceFolders",
    "workspace/didCreateFiles", "workspace/didRenameFiles", "workspace/didDeleteFiles",
    "workspace/didChangeWatchedFiles"]

end Shape

end FunctionMeter
