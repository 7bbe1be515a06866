import FunctionMeter.Files
import FunctionMeter.Session.Basic
import FunctionMeter.Session.Message

/-!
# The server

A server serves one editor from its introduction to its leave. Which messages it takes depends on
the stage of this conversation; within it, messages act on the session.
-/

namespace FunctionMeter

inductive Stage where
  /-- The editor has not introduced itself. -/
  | waiting
  | serving
  /-- The editor has asked the server to stop. -/
  | stopped
  /-- The conversation is over. -/
  | over
  deriving DecidableEq, Repr

/-- Why a stage in which the server does not serve refuses a request. -/
def Stage.refusal : Stage → RequestError
  | .waiting => .notStarted
  | .serving | .stopped | .over => .invalidRequest

structure Server where
  stage : Stage := .waiting
  session : Session
  /-- Where the configuration of a project is found. -/
  files : Files
  /-- The text of the configuration file of the user. -/
  userConfig : Option String

/-- How the server answers a message. -/
inductive Reply where
  | ok (value : Json)
  | refused (error : RequestError)
  /-- The answer is sent later. -/
  | later
  /-- There is no answer to this message. -/
  | silent
  deriving Repr

namespace Server

/-- The command for measuring the document in focus at once. -/
def recalculateCommand : String := "funcloc.recalculate"

/-- What the server tells of itself. -/
def greeting : Json :=
  .record
    [("capabilities", .record
        [("textDocumentSync", .int 2), ("inlayHintProvider", .bool true),
          ("executeCommandProvider", .record [("commands", .arr [.str recalculateCommand])])]),
      ("serverInfo", .record [("name", .str "funcloc"), ("version", .str "0.1.0")])]

/-- The configuration for an editor: the one it sends along, or else that of the folder it works in.
One that is not valid is passed over. -/
def configFor (server : Server) (introduction : Introduction) : Config :=
  let found := match introduction.root.bind Uri.filePath? with
    | some folder =>
      Config.load [server.files.readText? (Path.join folder Config.fileName), server.userConfig]
    | none => Config.default
  match introduction.options.map Config.ofJson with
  | some (.ok config) => config
  | _ => found

/-- Takes up service for an editor. -/
def start (server : Server) (introduction : Introduction) : Server :=
  { server with
    stage := .serving
    session :=
      { server.session with
        config := server.configFor introduction
        refreshes := introduction.refreshes } }

/-- Ends the conversation. Open requests are called off, and nothing happens any more. -/
def exit (server : Server) : Server :=
  let session := server.session.openRequests.foldl Session.callOff server.session
  { server with
    stage := .over
    session := { session with passes := [], scheduler := session.scheduler.cancel } }

/-- Acts on a notification if its parameters can be read. -/
def heed {α : Type} (server : Server) (params : Option α) (act : Session → α → Session) : Server :=
  match params with
  | some value => { server with session := act server.session value }
  | none => server

/-- Takes a notification while the server serves. -/
def notify (server : Server) (now : Nat) (method : Method) (params : Option Json) : Server :=
  match method with
  | .opened => server.heed (params.bind Params.opened?) (·.openDocument now ·)
  | .changed =>
    server.heed (params.bind Params.changed?) fun session (uri, changes, version) =>
      session.changeDocument now uri changes version
  | .closed => server.heed (params.bind Params.closed?) (·.closeDocument now ·)
  | .focused => server.heed (params.bind Params.focused?) (·.changeFocus now ·)
  | _ => server

/-- Answers a request while the server serves. -/
def respond (server : Server) (now request : Nat) (method : Method) (params : Option Json) :
    Reply × Server :=
  match method with
  | .hints =>
    match params.bind Params.hinted? with
    | some (uri, range) =>
      (.ok (.ofOption (Json.ofList Hint.toJson) (server.session.hints? uri range)), server)
    | none => (.refused .invalidParams, server)
  | .execute =>
    match params.bind Params.command? with
    | some command =>
      if command = recalculateCommand then
        (.later, { server with session := server.session.recalculate now request })
      else (.refused (.unknownCommand command), server)
    | none => (.refused .invalidParams, server)
  | .unserved shape =>
    (.refused (if params.any shape then .unknownMethod else .invalidParams), server)
  | _ => (.refused .invalidRequest, server)

/-- Answers a request to stop. The server is stopped from here on, also if the parameters that it
does not take keep the session going. -/
def stop (server : Server) (params : Option Json) : Reply × Server :=
  let server := { server with stage := .stopped }
  match params with
  | none => (.ok .null, { server with session := server.session.shutdown })
  | some _ => (.refused .invalidParams, server)

/-- Takes a message that needs the server to serve. -/
def serve (server : Server) (now : Nat) (method : Method) (message : Message) : Reply × Server :=
  match server.stage, message.request with
  | .serving, some request =>
    if method.isNotification then (.refused .invalidRequest, server)
    else
      match method with
      | .stop => server.stop message.params
      | _ => server.respond now request method message.params
  | .serving, none =>
    match method with
    | .stop => (.silent, { server with stage := .stopped })
    | _ => (.silent, if method.isNotification then server.notify now method message.params else server)
  | stage, some _ => (.refused stage.refusal, server)
  | _, none => (.silent, server)

/-- Answers the introduction of an editor, which comes once. -/
def introduce (server : Server) (message : Message) : Reply × Server :=
  match server.stage, message.request, message.params.bind Introduction.ofJson? with
  | _, none, _ => (.silent, server)
  | .waiting, some _, some introduction => (.ok greeting, server.start introduction)
  | .waiting, some _, none => (.refused .invalidParams, server)
  | _, some _, _ => (.refused .invalidRequest, server)

/-- Whether servers may do without a method: requests for it get no answer where it is unknown. -/
def isOptional (method : String) : Bool := "$/".toList.isPrefixOf method.toList

/-- Takes a message of the editor. A server whose conversation is over does nothing. -/
def receive (server : Server) (now : Nat) (message : Message) : Reply × Server :=
  if server.stage = .over then (.silent, server)
  else
    match Method.ofName? message.method, message.request with
    | some .exit, _ => (.silent, server.exit)
    | some .start, _ => server.introduce message
    | some .callOff, none =>
      (.silent, server.heed (message.params.bind Params.calledOff?) Session.callOff)
    | some .callOff, some _ => (.refused .invalidRequest, server)
    | some method, _ => server.serve now method message
    | none, some _ =>
      (if isOptional message.method then .silent else .refused .unknownMethod, server)
    | none, none => (.silent, server)

end Server

end FunctionMeter
