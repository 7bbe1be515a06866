import FunctionMeter.Scheduler.Basic

/-!
# The scheduler on a virtual clock

Things that happen at set times are run in order on a clock that moves only from one of them to the
next. What happens may set further times; `fuel` bounds how many are reached.

On such a clock a scheduler runs against measurements that only take time: each measurement lasts as
long as the settings say and then yields a number of functions or a failure. The calls made to the
scheduler are steps of a script, and everything that happens is recorded with its time.
-/

namespace FunctionMeter.Clock

/-- Lets everything happen that is due up to a limit. `next?` tells when the next thing is due, and
`happen` lets it happen. -/
def run {σ : Type} (next? : σ → Option Nat) (happen : σ → σ) (fuel limit : Nat) (s : σ) : σ :=
  match fuel with
  | 0 => s
  | fuel + 1 =>
    match next? s with
    | some due => if due ≤ limit then run next? happen fuel limit (happen s) else s
    | none => s

/-- The first of the items that are due earliest. -/
def earliest? {α : Type} (due : α → Nat) : List α → Option α
  | [] => none
  | a :: rest =>
    match earliest? due rest with
    | some b => if due b < due a then some b else some a
    | none => some a

/-- The earlier of two times that may be missing. -/
def sooner? : Option Nat → Option Nat → Option Nat
  | some a, some b => some (min a b)
  | some a, none => some a
  | none, b => b

end FunctionMeter.Clock

namespace FunctionMeter.Simulation

structure Settings where
  /-- How long a measurement takes. -/
  latency : Nat := 0
  /-- Documents that cannot be found. -/
  missing : List Uri := []
  /-- Documents whose symbols cannot be provided. -/
  broken : List Uri := []
  /-- How many functions a document has, where it is not one. -/
  functions : List (Uri × Nat) := []
  deriving Repr, Inhabited

inductive Result where
  | published (functions : Nat)
  /-- A newer trigger came during the measurement. -/
  | superseded
  | noDocument
  | broken
  deriving DecidableEq, Repr

/-- What a measurement will find. -/
def Settings.measure (settings : Settings) (uri : Uri) : Result :=
  if settings.missing.contains uri then .noDocument
  else if settings.broken.contains uri then .broken
  else .published ((settings.functions.lookup uri).getD 1)

inductive Event where
  | measure (uri : Uri)
  | measured (uri : Uri)
  | publish (uri : Uri) (functions : Nat)
  /-- A pass in the background ended. -/
  | finished (result : Result)
  deriving DecidableEq, Repr

/-- Who waits for the end of a pass. -/
inductive Waiter where
  | nobody
  | background
  | caller
  deriving DecidableEq, Repr

/-- A measurement under way, with what it will find. -/
structure Pass where
  uri : Uri
  generation : Nat
  due : Nat
  finding : Result
  waiter : Waiter
  deriving Repr

structure State where
  now : Nat := 0
  settings : Settings := {}
  scheduler : Scheduler := {}
  /-- Whether the scheduler has been let go of. -/
  dropped : Bool := false
  passes : List Pass := []
  /-- What happened since the last step, with its time. -/
  events : List (Nat × Event) := []
  /-- The result of the pass that the caller waited for. -/
  answer : Option Result := none

namespace State

def record (s : State) (event : Event) : State :=
  { s with events := s.events ++ [(s.now, event)] }

/-- Begins to measure a document. -/
def begin (s : State) (waiter : Waiter) (pass : Uri × Nat) : State :=
  let (uri, generation) := pass
  let s := s.record (.measure uri)
  let pass : Pass :=
    ⟨uri, generation, s.now + s.settings.latency, s.settings.measure uri, waiter⟩
  { s with passes := s.passes ++ [pass] }

/-- Lets the timer run out. -/
def fire (s : State) : State :=
  let (pass, scheduler) := s.scheduler.fire
  let s := { s with scheduler }
  match pass with
  | some pass => s.begin .nobody pass
  | none => s

/-- A scheduler that has been let go of lives on while background passes use it; then its timer is
disarmed. -/
def release (s : State) : State :=
  if s.dropped && !s.passes.any (·.waiter = .background) then
    { s with scheduler := s.scheduler.cancel }
  else s

/-- Tells whoever waits for a measurement how it ended. -/
def tell (s : State) (waiter : Waiter) (result : Result) : State :=
  match waiter with
  | .nobody => s
  | .background => (s.record (.finished result)).release
  | .caller => { s with answer := some result }

/-- Ends a measurement: what was found is published if its generation is still the latest. -/
def finish (s : State) (pass : Pass) : State :=
  let s := { s with passes := s.passes.filter (·.generation ≠ pass.generation) }
  let s := s.record (.measured pass.uri)
  let (result, s) := match pass.finding with
    | .published functions =>
      if s.scheduler.isLatest pass.generation then
        (Result.published functions, s.record (.publish pass.uri functions))
      else (.superseded, s)
    | failure => (failure, s)
  s.tell pass.waiter result

/-- When the next thing is due. -/
def next? (s : State) : Option Nat :=
  Clock.sooner? (s.scheduler.timer.map (·.due)) ((Clock.earliest? Pass.due s.passes).map (·.due))

/-- Lets the next thing happen; measurements come before the timer. -/
def happen (s : State) : State :=
  let s := { s with now := max s.now (s.next?.getD s.now) }
  match Clock.earliest? Pass.due s.passes with
  | some pass => if pass.due ≤ s.now then s.finish pass else s.fire
  | none => s.fire

/-- Lets everything happen up to a time and moves the clock there. Every pass ends once, and the
timer begins at most one more. -/
def waitUntil (s : State) (time : Nat) : State :=
  { Clock.run next? happen (s.passes.length + 2) time s with now := time }

/-- Lets everything happen that needs no time. -/
def settle (s : State) : State := s.waitUntil s.now

end State

/-- A call that returns at once. -/
inductive Call where
  | turnTo (uri : Option Uri)
  | schedule (trigger : Trigger)
  | cancel
  | shutdown
  deriving Repr

def Call.apply (now : Nat) (s : Scheduler) : Call → Scheduler
  | .turnTo uri => s.turnTo now uri
  | .schedule trigger => s.schedule now trigger
  | .cancel => s.cancel
  | .shutdown => s.shutdown

inductive Step where
  /-- Calls made one after another with nothing in between. -/
  | calls (made : List Call)
  | sleep (duration : Nat)
  /-- Begins a pass and waits for it. -/
  | runNow
  /-- Begins a pass in the background. -/
  | runInBackground
  | change (settings : Settings)
  | drop
  deriving Repr

/-- What a step shows when it has settled. -/
structure Row where
  now : Nat
  events : List (Nat × Event)
  /-- Whether a timer is armed and the active document, unless the scheduler is gone. -/
  scheduler : Option (Bool × Option Uri)
  /-- Whether the step could not be made, since the scheduler is gone. -/
  refused : Bool
  result : Option Result
  deriving Repr

/-- Waits for a pass that the caller began. -/
def State.await (s : State) : State :=
  match s.passes.find? (·.waiter = .caller) with
  | some pass => s.waitUntil pass.due
  | none => s.settle

/-- Whether a step needs the scheduler. -/
def Step.needsScheduler : Step → Bool
  | .calls _ | .runNow | .runInBackground => true
  | .sleep _ | .change _ | .drop => false

def Step.perform (s : State) : Step → State
  | .calls made =>
    { s with scheduler := made.foldl (Call.apply s.now) s.scheduler }.settle
  | .sleep duration => s.waitUntil (s.now + duration)
  | .runNow =>
    let (pass, scheduler) := s.scheduler.startNow
    let s := { s with scheduler }
    match pass with
    | some pass => (s.begin .caller pass).await
    | none => { s with answer := some .noDocument }.settle
  | .runInBackground =>
    let (pass, scheduler) := s.scheduler.startNow
    let s := { s with scheduler }
    match pass with
    | some pass => (s.begin .background pass).settle
    | none => (s.record (.finished .noDocument)).settle
  | .change settings => { s with settings := settings }.settle
  | .drop => { s with dropped := true }.release.settle

/-- Makes one step of a script and tells what it shows. -/
def step (s : State) (step : Step) : State × Row :=
  let refused := s.dropped && step.needsScheduler
  let s := if refused then s else step.perform s
  let row : Row :=
    { now := s.now, events := s.events
      scheduler := if s.dropped then none else some (s.scheduler.isPending, s.scheduler.active)
      refused, result := s.answer }
  ({ s with events := [], answer := none }, row)

/-- What the steps of a script show. -/
def run (s : State) : List Step → List Row
  | [] => []
  | first :: rest =>
    let (s, row) := step s first
    row :: run s rest

end FunctionMeter.Simulation
