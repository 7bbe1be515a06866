import FunctionMeter.Decoration
import FunctionMeter.Document.Store
import FunctionMeter.Provider
import FunctionMeter.Scheduler.Basic

/-!
# Editing sessions

What the server knows of one editor: the open documents, which of them is in focus, the labels that
the editor was last sent for each document, and the passes under way. Handlers of the editor's
messages and the steps of passes each take a session to the next, so that they can be interleaved in
any order.
-/

namespace FunctionMeter

/-- How far a pass has come. -/
inductive Progress where
  | begun
  /-- The provider is at work on a snapshot of the document. -/
  | measuring (document : Document)
  | measured (version : Int32) (metrics : List Metric)
  /-- The pass was found to be the latest and goes on to publish. -/
  | approved (version : Int32) (metrics : List Metric)
  /-- The labels are stored, and the editor is still to be told. -/
  | labelled (version : Int32) (metrics : List Metric) (decorations : Decorations)
  deriving DecidableEq, Repr

/-- One measurement of a document, identified by its generation. -/
structure Pass where
  uri : Uri
  generation : Nat
  began : Nat
  /-- The request that the pass answers when it ends. -/
  request : Option Nat := none
  progress : Progress := .begun
  deriving DecidableEq, Repr

/-- How a pass ends. -/
inductive Outcome where
  | published (functions : Nat)
  /-- Something newer happened during the measurement, whose results are dropped. -/
  | superseded
  /-- The document was not open. -/
  | noDocument
  deriving DecidableEq, Repr

namespace Outcome

/-- What the user who asked for a pass is told. -/
def message : Outcome → String
  | .published functions => "funcloc: measured " ++ functions.repr ++ " functions"
  | .superseded => "funcloc: document changed during recalculation, retrying shortly"
  | .noDocument => "funcloc: no active document"

def functions? : Outcome → Option Nat
  | .published functions => some functions
  | .superseded | .noDocument => none

end Outcome

/-- What the server sends to the editor on its own. -/
inductive Outgoing where
  | decorations (notice : DecorationNotice)
  /-- A wish that the editor fetch its hints again. -/
  | refreshHints
  | message (text : String)
  /-- The answer to a request for a pass: how many functions it published. -/
  | counted (request : Nat) (functions : Option Nat)
  /-- The answer to a request that was called off. -/
  | calledOff (request : Nat)
  deriving DecidableEq, Repr

structure Session where
  provider : Provider
  config : Config := Config.default
  /-- Whether the editor wants to hear that hints have changed. -/
  refreshes : Bool := false
  store : Store := Store.empty
  scheduler : Scheduler := {}
  /-- The labels last published for each document. -/
  labels : List (Uri × List Label) := []
  passes : List Pass := []
  /-- Everything sent, the oldest first. -/
  sent : List Outgoing := []

namespace Session

def send (s : Session) (out : Outgoing) : Session := { s with sent := s.sent ++ [out] }

def labels? (s : Session) (uri : Uri) : Option (List Label) := s.labels.lookup uri

def eraseLabels (s : Session) (uri : Uri) : Session :=
  { s with labels := s.labels.filter (·.1 ≠ uri) }

def insertLabels (s : Session) (uri : Uri) (labels : List Label) : Session :=
  { s with labels := (uri, labels) :: (s.eraseLabels uri).labels }

/-! ## Messages of the editor -/

/-- A document was opened, which brings it into focus. -/
def openDocument (s : Session) (now : Nat) (document : Document) : Session :=
  { s with
    store := s.store.insert document
    scheduler := s.scheduler.turnTo now (some document.uri) }

/-- A document changed. A document that is not in focus is measured when it comes into focus. -/
def changeDocument (s : Session) (now : Nat) (uri : Uri) (changes : List Change)
    (version : Int32) : Session :=
  match s.store.change? uri changes version with
  | none => s
  | some (_, store) =>
    let s := { s with store }
    if s.scheduler.active = some uri then
      { s with scheduler := s.scheduler.schedule now .edit }
    else s

/-- A document was closed, and with it go its labels. -/
def closeDocument (s : Session) (now : Nat) (uri : Uri) : Session :=
  let s := { s with store := s.store.erase uri }.eraseLabels uri
  if s.scheduler.active = some uri then
    { s with scheduler := s.scheduler.turnTo now none }
  else s

/-- The focus moved to a document, or to none. A document that is not open counts as none. -/
def changeFocus (s : Session) (now : Nat) (uri : Option Uri) : Session :=
  let uri := uri.filter fun u => (s.store.get? u).isSome
  if uri = s.scheduler.active then
    { s with scheduler := s.scheduler.schedule now .focus }
  else { s with scheduler := s.scheduler.turnTo now uri }

def shutdown (s : Session) : Session := { s with scheduler := s.scheduler.shutdown }

/-! ## Passes -/

def begin (s : Session) (pass : Pass) : Session := { s with passes := s.passes ++ [pass] }

def pass? (s : Session) (generation : Nat) : Option Pass :=
  s.passes.find? (·.generation = generation)

def erasePass (s : Session) (generation : Nat) : Session :=
  { s with passes := s.passes.filter (·.generation ≠ generation) }

def setProgress (s : Session) (generation : Nat) (progress : Progress) : Session :=
  { s with
    passes := s.passes.map fun pass =>
      if pass.generation = generation then { pass with progress } else pass }

/-- Answers a request for a pass, after a message to the user. -/
def answer (s : Session) (request : Nat) (outcome : Outcome) : Session :=
  (s.send (.message outcome.message)).send (.counted request outcome.functions?)

/-- Ends a pass. -/
def conclude (s : Session) (pass : Pass) (outcome : Outcome) : Session :=
  let s := s.erasePass pass.generation
  match pass.request with
  | some request => s.answer request outcome
  | none => s

/-- The timer runs out, and a pass begins. -/
def fire (s : Session) (now : Nat) : Session :=
  let (pass, scheduler) := s.scheduler.fire
  let s := { s with scheduler }
  match pass with
  | some (uri, generation) => s.begin { uri, generation, began := now }
  | none => s

/-- A pass takes the document as it stands. -/
def takeSnapshot (s : Session) (generation : Nat) : Session :=
  match s.pass? generation with
  | none => s
  | some pass =>
    match pass.progress with
    | .begun =>
      match s.store.get? pass.uri with
      | some document => s.setProgress generation (.measuring document)
      | none => s.conclude pass .noDocument
    | _ => s

/-- The provider has done its work on the snapshot of a pass. -/
def finishMeasuring (s : Session) (generation : Nat) : Session :=
  match s.pass? generation with
  | none => s
  | some pass =>
    match pass.progress with
    | .measuring document =>
      s.setProgress generation (.measured document.version (s.provider.measure document))
    | _ => s

/-- A pass goes on only if nothing newer has happened. -/
def checkLatest (s : Session) (generation : Nat) : Session :=
  match s.pass? generation with
  | none => s
  | some pass =>
    match pass.progress with
    | .measured version metrics =>
      if s.scheduler.isLatest generation then
        s.setProgress generation (.approved version metrics)
      else s.conclude pass .superseded
    | _ => s

/-- A pass stores the labels that hints are answered from. -/
def storeLabels (s : Session) (generation : Nat) : Session :=
  match s.pass? generation with
  | none => s
  | some pass =>
    match pass.progress with
    | .approved version metrics =>
      let decorations := Decorations.ofMetrics s.config metrics
      let s := if decorations.isClear then s.eraseLabels pass.uri
        else s.insertLabels pass.uri decorations.labels
      s.setProgress generation (.labelled version metrics decorations)
    | _ => s

/-- A pass tells the editor what to draw. -/
def announce (s : Session) (generation : Nat) : Session :=
  match s.pass? generation with
  | none => s
  | some pass =>
    match pass.progress with
    | .labelled version metrics decorations =>
      let s := s.send (.decorations ⟨pass.uri, version, decorations⟩)
      let s := if s.refreshes then s.send .refreshHints else s
      s.conclude pass (.published metrics.length)
    | _ => s

/-- The check of a pass and everything after it, in one step. -/
def publish (s : Session) (generation : Nat) : Session :=
  ((s.checkLatest generation).storeLabels generation).announce generation

/-- The end of the measurement and everything after it, in one step. -/
def finish (s : Session) (generation : Nat) : Session :=
  (s.finishMeasuring generation).publish generation

/-- The user asks for a pass. It takes its snapshot at once. -/
def recalculate (s : Session) (now request : Nat) : Session :=
  let (pass, scheduler) := s.scheduler.startNow
  let s := { s with scheduler }
  match pass with
  | some (uri, generation) =>
    (s.begin { uri, generation, began := now, request := some request }).takeSnapshot generation
  | none => s.answer request .noDocument

/-- The editor calls off a request; the pass that would answer it stops. -/
def callOff (s : Session) (request : Nat) : Session :=
  if s.passes.any (·.request = some request) then
    { s with passes := s.passes.filter (·.request ≠ some request) }.send (.calledOff request)
  else s

/-- The requests that passes are to answer, the oldest first. -/
def openRequests (s : Session) : List Nat := s.passes.filterMap (·.request)

end Session

/-! ## Hints -/

/-- A note that the editor shows between the characters of a document. -/
structure Hint where
  position : Position
  label : String
  tooltip : String
  deriving DecidableEq, Repr

namespace Hint

def ofLabel (label : Label) : Hint :=
  { position := label.position, label := label.text
    tooltip := label.loc.toNat.repr ++ " LOC (" ++ label.category.name ++ " tier)" }

def toJson (h : Hint) : Json :=
  .record [("position", h.position.toJson), ("label", .str h.label), ("tooltip", .str h.tooltip),
    ("paddingLeft", .bool true)]

end Hint

/-- The hints on the lines of a range; nothing for a document that has no labels published. -/
def Session.hints? (s : Session) (uri : Uri) (range : Range) : Option (List Hint) :=
  (s.labels? uri).map fun labels =>
    (labels.filter fun l => range.start.line ≤ l.position.line ∧ l.position.line ≤ range.stop.line).map
      Hint.ofLabel

end FunctionMeter
