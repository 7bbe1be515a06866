import FunctionMeter.Uri.Basic

/-!
# The update scheduler

Decides when the active document is measured again. Edits and changes of focus restart a timer, and
only when it has run out a pass begins; a manual request waits for nothing. Every trigger takes a
new generation, and a pass may publish only while its generation is the latest, so that a slow pass
never overwrites what is newer.
-/

namespace FunctionMeter

/-- Why a pass is asked for. -/
inductive Trigger where
  /-- The text of the active document changed. -/
  | edit
  /-- The active document came into focus. -/
  | focus
  /-- The user asked for it. -/
  | manual
  deriving DecidableEq, Repr

namespace Trigger

/-- The quiet time in milliseconds before a pass, counted from the last trigger. -/
def quietPeriod : Nat := 250

def delay : Trigger → Nat
  | .manual => 0
  | .edit | .focus => quietPeriod

end Trigger

/-- An armed timer: which document is measured when it runs out, and when that is. -/
structure Timer where
  uri : Uri
  generation : Nat
  due : Nat
  deriving DecidableEq, Repr, Inhabited

structure Scheduler where
  active : Option Uri := none
  timer : Option Timer := none
  closed : Bool := false
  /-- The number of generations so far, which is also the latest. The number stands for a counter of
  64 bits; that such a counter starts again from zero when it is full is left out. -/
  generation : Nat := 0
  deriving DecidableEq, Repr, Inhabited

namespace Scheduler

/-- Disarms the timer. -/
def cancel (s : Scheduler) : Scheduler := { s with timer := none }

/-- Begins a new generation. -/
def advance (s : Scheduler) : Scheduler := { s with generation := s.generation + 1 }

/-- Makes another document, or none, the active one. -/
def pointAt (s : Scheduler) (uri : Option Uri) : Scheduler := { s.cancel with active := uri }

/-- Restarts the timer for the active document, if there is one. -/
def schedule (s : Scheduler) (now : Nat) (trigger : Trigger) : Scheduler :=
  if s.closed then s
  else
    match s.active with
    | none => s.cancel
    | some uri =>
      let s := s.advance
      { s with timer := some ⟨uri, s.generation, now + trigger.delay⟩ }

/-- Turns to another document, or to none, and starts a new quiet period. Passes for the document
before are out of date from here on. -/
def turnTo (s : Scheduler) (now : Nat) (uri : Option Uri) : Scheduler :=
  if s.closed then s else (s.pointAt uri).advance.schedule now .focus

/-- Begins a pass at once in place of one that the timer would begin. -/
def startNow (s : Scheduler) : Option (Uri × Nat) × Scheduler :=
  let s := s.cancel
  if s.closed then (none, s)
  else
    match s.active with
    | none => (none, s)
    | some uri =>
      let s := s.advance
      (some (uri, s.generation), s)

/-- Disarms the timer, forgets the active document and takes no further triggers. -/
def close (s : Scheduler) : Scheduler := { s.cancel with active := none, closed := true }

/-- Stops for good; passes under way are out of date. -/
def shutdown (s : Scheduler) : Scheduler := s.close.advance

/-- Lets the timer run out, which begins a pass. -/
def fire (s : Scheduler) : Option (Uri × Nat) × Scheduler :=
  (s.timer.map fun timer => (timer.uri, timer.generation), s.cancel)

/-- Whether a pass of a generation may still publish. -/
def isLatest (s : Scheduler) (generation : Nat) : Bool := s.generation = generation

def isPending (s : Scheduler) : Bool := s.timer.isSome

end Scheduler

end FunctionMeter
