import FunctionMeter.Scheduler.Simulation
import FunctionMeter.Session.Server

/-!
# A server on a virtual clock

Plays a conversation against a server whose provider takes a set time for each measurement, and
records what the server sends and when.
-/

namespace FunctionMeter.Timeline

inductive Step where
  /-- A request whose answer is waited for. -/
  | request (method : String) (params : Option Json)
  | requestInBackground (method : String) (params : Option Json)
  | notify (method : String) (params : Option Json)
  | sleep (duration : Nat)
  deriving Repr

/-- How a step ends. -/
inductive Result where
  | reply (reply : Reply)
  /-- The conversation was over. -/
  | over
  /-- There is nothing to tell. -/
  | nothing
  deriving Repr

/-- What a step shows. -/
structure Row where
  now : Nat
  result : Result
  /-- What the server sent on its own, with its time. -/
  events : List (Nat × Outgoing)
  /-- The answers to requests in the background. -/
  responses : List (Nat × Nat × Result)
  deriving Repr

structure State where
  now : Nat := 0
  /-- How long the provider takes. -/
  latency : Nat
  server : Server
  /-- The identifier of the next request. -/
  nextRequest : Nat := 1
  /-- What was sent since the last step, with its time. -/
  log : List (Nat × Outgoing) := []

namespace State

/-- Moves what the server has sent to the log. -/
def collect (s : State) : State :=
  let session := s.server.session
  { s with
    log := s.log ++ session.sent.map (s.now, ·)
    server := { s.server with session := { session with sent := [] } } }

def act (s : State) (f : Session → Session) : State :=
  { s with server := { s.server with session := f s.server.session } }.collect

/-- When the provider will have measured for a pass. -/
def due (s : State) (pass : Pass) : Nat := pass.began + s.latency

def nextPass? (s : State) : Option Pass := Clock.earliest? s.due s.server.session.passes

/-- When the next thing is due. -/
def next? (s : State) : Option Nat :=
  Clock.sooner? (s.server.session.scheduler.timer.map (·.due)) (s.nextPass?.map s.due)

/-- The timer runs out, and the pass that it begins takes its snapshot. -/
def fire (s : State) : State :=
  s.act fun session =>
    let generation := (session.scheduler.timer.map (·.generation)).getD 0
    (session.fire s.now).takeSnapshot generation

/-- Lets the next thing happen; measurements come before the timer. -/
def happen (s : State) : State :=
  let s := { s with now := max s.now (s.next?.getD s.now) }
  match s.nextPass? with
  | some pass => if s.due pass ≤ s.now then s.act (·.finish pass.generation) else s.fire
  | none => s.fire

/-- Lets everything happen up to a time and moves the clock there. Every pass ends once, and the
timer begins at most one more. -/
def waitUntil (s : State) (time : Nat) : State :=
  { Clock.run next? happen (s.server.session.passes.length + 2) time s with now := time }

/-- Lets everything happen that needs no time. -/
def settle (s : State) : State := s.waitUntil s.now

/-- Gives the server a message. -/
def receive (s : State) (message : Message) : Reply × State :=
  let (reply, server) := s.server.receive s.now message
  (reply, { s with server }.collect)

/-- Gives the server a request. -/
def ask (s : State) (method : String) (params : Option Json) : Nat × Reply × State :=
  let (reply, next) := s.receive ⟨some s.nextRequest, method, params⟩
  (s.nextRequest, reply, { next with nextRequest := s.nextRequest + 1 })

/-- Waits until a request is answered. -/
def await (s : State) (request : Nat) : State :=
  match s.server.session.passes.find? (·.request = some request) with
  | some pass => s.waitUntil (s.due pass)
  | none => s.settle

end State

/-- The answer that a sent message gives to a request. -/
def answer? : Outgoing → Option (Nat × Reply)
  | .counted request functions => some (request, .ok (.ofOption .ofNat functions))
  | .calledOff request => some (request, .refused .calledOff)
  | .decorations _ | .refreshHints | .message _ => none

/-- The answers in a log, with their times. -/
def answers (log : List (Nat × Outgoing)) : List (Nat × Nat × Reply) :=
  log.filterMap fun (time, out) => (answer? out).map (time, ·)

/-- Ends a step: tells what it shows and empties the log. Answers given at once come first, and the
answer to a request that was waited for is not told again. -/
def close (s : State) (result : Result) (early : List (Nat × Nat × Result))
    (awaited : Option Nat) : State × Row :=
  let late := (answers s.log).filter fun (_, request, _) => some request ≠ awaited
  let row : Row :=
    { now := s.now, result
      events := s.log.filter fun (_, out) => (answer? out).isNone
      responses := early ++ late.map fun (time, request, reply) => (time, request, .reply reply) }
  ({ s with log := [] }, row)

/-- Plays one step. -/
def step (s : State) : Step → State × Row
  | .sleep duration => close (s.waitUntil (s.now + duration)) .nothing [] none
  | .notify method params =>
    if s.server.stage = .over then close s .over [] none
    else
      let (reply, s) := s.receive ⟨none, method, params⟩
      close s.settle (.reply reply) [] none
  | .request method params =>
    if s.server.stage = .over then close { s with nextRequest := s.nextRequest + 1 } .over [] none
    else
      let (request, reply, s) := s.ask method params
      match reply with
      | .later =>
        let s := s.await request
        let reply := ((answers s.log).find? (·.2.1 = request)).map (·.2.2)
        close s (.reply (reply.getD .silent)) [] (some request)
      | reply => close s.settle (.reply reply) [] none
  | .requestInBackground method params =>
    if s.server.stage = .over then
      close { s with nextRequest := s.nextRequest + 1 } .nothing [(s.now, s.nextRequest, .over)] none
    else
      let (request, reply, s) := s.ask method params
      let early := match reply with
        | .later => []
        | reply => [(s.now, request, .reply reply)]
      close s.settle .nothing early none

/-- What the steps of a conversation show. -/
def run (s : State) : List Step → List Row
  | [] => []
  | first :: rest =>
    let (s, row) := step s first
    row :: run s rest

end FunctionMeter.Timeline
