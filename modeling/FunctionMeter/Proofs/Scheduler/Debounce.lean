import FunctionMeter.Proofs.Scheduler.Basic
import FunctionMeter.Scheduler.Simulation
import Mathlib

/-!
# Quiet periods

Calls are made to a scheduler at set times on the virtual clock. Each call takes the timer away, and
some arm it anew; what is left of a script is that the timer runs out exactly where no call comes
before its deadline. How long measurements take and how they end plays no part in this, since passes
under way leave the timer alone.

The clock is run with just enough fuel: `load` counts what can still happen.
-/

namespace FunctionMeter.Simulation

/-! ## Calls at set times -/

/-- A call to a scheduler. A pass that is run now is run in the background, so that other calls may
come while it is under way. -/
inductive Request where
  | turnTo (uri : Option Uri)
  | edited
  | focused
  | runNow
  | cancel
  | shutdown
  deriving DecidableEq

structure Timed where
  time : Nat
  request : Request
  deriving DecidableEq

namespace Request

def step : Request → Step
  | .turnTo uri => .calls [.turnTo uri]
  | .edited => .calls [.schedule .edit]
  | .focused => .calls [.schedule .focus]
  | .runNow => .runInBackground
  | .cancel => .calls [.cancel]
  | .shutdown => .calls [.shutdown]

/-- Whether a call starts a quiet period. -/
def isTrigger : Request → Bool
  | .turnTo _ | .edited | .focused => true
  | .runNow | .cancel | .shutdown => false

/-- Where a call turns to. -/
def target? : Request → Option (Option Uri)
  | .turnTo uri => some uri
  | .edited | .focused | .runNow | .cancel | .shutdown => none

end Request

/-- Waits for the time of each call and makes it, and has patience in the end. -/
def script (patience now : Nat) : List Timed → List Step
  | [] => [.sleep patience]
  | call :: calls =>
    .sleep (call.time - now) :: call.request.step :: script patience call.time calls

def Step.isSleep : Step → Bool
  | .sleep _ => true
  | _ => false

/-- The measurements that begin in a list of events, with their times. -/
def begun (events : List (Nat × Event)) : List (Nat × Uri) :=
  events.filterMap fun (time, event) =>
    match event with
    | .measure uri => some (time, uri)
    | .measured _ | .publish .. | .finished _ => none

/-- The measurements that begin during the steps of a kind. -/
def begunIn (kind : Step → Bool) (s : State) (steps : List Step) : List (Nat × Uri) :=
  ((steps.zip (run s steps)).filter fun (step, _) => kind step).flatMap fun (_, row) =>
    begun row.events

/-- The measurements that begin while a script only waits: it is the timer that begins them. -/
def debounced (settings : Settings) (patience : Nat) (calls : List Timed) : List (Nat × Uri) :=
  begunIn Step.isSleep { settings } (script patience 0 calls)

/-- The measurements that calls begin themselves. -/
def immediate (settings : Settings) (patience : Nat) (calls : List Timed) : List (Nat × Uri) :=
  begunIn (!·.isSleep) { settings } (script patience 0 calls)

/-! ## What calls are owed -/

/-- The document that calls leave active, unless they shut the scheduler down. -/
def activeAfter (calls : List Timed) : Option Uri :=
  if calls.any (·.request = .shutdown) then none
  else (calls.filterMap (·.request.target?)).getLast?.join

/-- The deadline that the last call has set, and for which document. -/
def armed? (calls : List Timed) : Option (Nat × Uri) :=
  calls.getLast?.bind fun call =>
    if call.request.isTrigger then
      (activeAfter calls).map fun uri => (call.time + Trigger.quietPeriod, uri)
    else none

/-- One measurement for each call that sets a deadline before which no further call comes. -/
def owed (before : List Timed) : List Timed → List (Nat × Uri)
  | [] => []
  | call :: after =>
    ((armed? (before ++ [call])).filter fun armed =>
        ∀ later ∈ after, armed.1 < later.time).toList ++
      owed (before ++ [call]) after

/-- One measurement for each call to run a pass now that finds a document active. -/
def asked (before : List Timed) : List Timed → List (Nat × Uri)
  | [] => []
  | call :: after =>
    (if call.request = .runNow then (activeAfter before).map (call.time, ·) else none).toList ++
      asked (before ++ [call]) after

/-- Whether no call falls on a deadline. -/
def isUntied (before : List Timed) : List Timed → Bool
  | [] => true
  | next :: after =>
    (armed? before).all (fun armed => armed.1 ≠ next.time) && isUntied (before ++ [next]) after

/-- Calls that start quiet periods, each before the one of the last call is over. -/
structure IsBurst (calls : List Timed) : Prop where
  triggers : ∀ call ∈ calls, call.request.isTrigger = true
  gaps : calls.IsChain fun earlier later => later.time < earlier.time + Trigger.quietPeriod

theorem armed?_concat (before : List Timed) (call : Timed) :
    armed? (before ++ [call]) =
      if call.request.isTrigger then
        (activeAfter (before ++ [call])).map fun uri => (call.time + Trigger.quietPeriod, uri)
      else none := by
  rw [armed?, List.getLast?_concat, Option.bind_some]

theorem deadline_of_armed? {before : List Timed} {call : Timed} {armed : Nat × Uri}
    (deadline : armed? (before ++ [call]) = some armed) :
    armed.1 = call.time + Trigger.quietPeriod := by
  rw [armed?_concat] at deadline
  split at deadline
  · obtain ⟨uri, -, rfl⟩ := Option.map_eq_some_iff.mp deadline
    rfl
  · cases deadline

/-! ## What happens while the clock moves -/

namespace State

/-- How many things can still happen: a timer that runs out begins a pass. -/
def load (s : State) : Nat := s.passes.length + 2 * s.scheduler.timer.toList.length

/-- The timer of a state that is due up to a limit. -/
def due? (s : State) (limit : Nat) : Option Timer := s.scheduler.timer.filter (·.due ≤ limit)

/-- The timer does not run out in the past. -/
def Ahead (s : State) : Prop := ∀ timer, s.scheduler.timer = some timer → s.now ≤ timer.due

theorem begun_record (s : State) (event : Event) :
    begun (s.record event).events = begun s.events ++ begun [(s.now, event)] := by
  rw [record, begun, List.filterMap_append]
  rfl

/-- What ends without touching the scheduler, and begins nothing. -/
structure Unmoved (s s' : State) : Prop where
  scheduler : s'.scheduler = s.scheduler
  dropped : s'.dropped = s.dropped
  now : s'.now = s.now
  passes : s'.passes = s.passes
  starts : begun s'.events = begun s.events

theorem Unmoved.trans {s s' s'' : State} (h : Unmoved s s') (h' : Unmoved s' s'') :
    Unmoved s s'' :=
  ⟨h'.scheduler.trans h.scheduler, h'.dropped.trans h.dropped, h'.now.trans h.now,
    h'.passes.trans h.passes, h'.starts.trans h.starts⟩

theorem unmoved_record (s : State) (event : Event) (quiet : begun [(s.now, event)] = []) :
    Unmoved s (s.record event) := by
  refine ⟨rfl, rfl, rfl, rfl, ?_⟩
  rw [begun_record, quiet, List.append_nil]

theorem release_of_kept {s : State} (kept : s.dropped = false) : s.release = s := by
  rw [release, kept, Bool.false_and, if_neg Bool.false_ne_true]

/-- Whoever waits for the end of a measurement, telling them begins nothing. -/
theorem unmoved_tell {s : State} (kept : s.dropped = false) (waiter : Waiter) (result : Result) :
    Unmoved s (s.tell waiter result) := by
  cases waiter with
  | nobody => exact ⟨rfl, rfl, rfl, rfl, rfl⟩
  | background =>
      have finished := unmoved_record s (.finished result) rfl
      rw [tell, release_of_kept (finished.dropped.trans kept)]
      exact finished
  | caller => exact ⟨rfl, rfl, rfl, rfl, rfl⟩

/-- The end of a measurement takes its pass away and begins nothing. -/
theorem unmoved_finish (s : State) (pass : Pass) (kept : s.dropped = false) :
    Unmoved { s with passes := s.passes.filter (·.generation ≠ pass.generation) }
      (s.finish pass) := by
  have measured := unmoved_record
    { s with passes := s.passes.filter (·.generation ≠ pass.generation) } (.measured pass.uri) rfl
  have told : ∀ {outcome : State} (result : Result),
      Unmoved { s with passes := s.passes.filter (·.generation ≠ pass.generation) } outcome →
      Unmoved { s with passes := s.passes.filter (·.generation ≠ pass.generation) }
        (outcome.tell pass.waiter result) :=
    fun result h => h.trans (unmoved_tell (h.dropped.trans kept) pass.waiter result)
  rw [finish]
  cases pass.finding with
  | published functions =>
      dsimp only
      split
      · exact told _ (measured.trans (unmoved_record _ (.publish pass.uri functions) rfl))
      · exact told _ measured
  | superseded => exact told _ measured
  | noDocument => exact told _ measured
  | broken => exact told _ measured

theorem mem_of_earliest? {α : Type} {due : α → Nat} {items : List α} {a : α}
    (found : Clock.earliest? due items = some a) : a ∈ items := by
  induction items generalizing a with
  | nil => cases found
  | cons b items ih =>
      rw [Clock.earliest?] at found
      split at found
      · rename_i c later
        split at found
        · obtain rfl := Option.some.inj found
          exact List.mem_cons_of_mem b (ih later)
        · obtain rfl := Option.some.inj found
          exact List.mem_cons_self
      · obtain rfl := Option.some.inj found
        exact List.mem_cons_self

/-- The next thing is due no later than the timer. -/
theorem exists_next?_of_timer {s : State} {timer : Timer} (armed : s.scheduler.timer = some timer) :
    ∃ due, s.next? = some due ∧ due ≤ timer.due := by
  rw [next?, armed, Option.map_some]
  cases Clock.earliest? Pass.due s.passes with
  | none => exact ⟨timer.due, rfl, le_rfl⟩
  | some pass => exact ⟨min timer.due pass.due, rfl, Nat.min_le_left _ _⟩

/-- What can happen next: a measurement ends, or the timer runs out and begins one. -/
inductive Happened (s : State) (due : Nat) (s' : State) : Prop
  | ended (scheduler : s'.scheduler = s.scheduler) (dropped : s'.dropped = s.dropped)
      (now : s'.now = max s.now due) (fewer : s'.passes.length < s.passes.length)
      (starts : begun s'.events = begun s.events)
  | fired {timer : Timer} (armed : s.scheduler.timer = some timer) (own : timer.due = due)
      (scheduler : s'.scheduler = s.scheduler.cancel) (dropped : s'.dropped = s.dropped)
      (more : s'.passes.length = s.passes.length + 1)
      (starts : begun s'.events = begun s.events ++ [(max s.now due, timer.uri)])

theorem happened_finish {s : State} {pass : Pass} (due : Nat) (kept : s.dropped = false)
    (member : pass ∈ s.passes) : Happened s due (finish { s with now := max s.now due } pass) := by
  have unmoved := unmoved_finish { s with now := max s.now due } pass kept
  refine .ended unmoved.scheduler unmoved.dropped unmoved.now ?_ unmoved.starts
  rw [unmoved.passes]
  exact List.length_filter_lt_length_iff_exists.mpr ⟨pass, member, by simp⟩

theorem happened_fire {s : State} {timer : Timer} (armed : s.scheduler.timer = some timer) :
    Happened s timer.due (fire { s with now := max s.now timer.due }) := by
  have ran := Scheduler.fire_of_some armed
  refine .fired armed rfl ?_ ?_ ?_ ?_
  · simp only [fire, ran, begin, record]
  · simp only [fire, ran, begin, record]
  · simp only [fire, ran, begin, record, List.length_append, List.length_singleton]
  · simp only [fire, ran, begin]
    exact begun_record _ (.measure timer.uri)

theorem happened_happen {s : State} {due : Nat} (next : s.next? = some due)
    (kept : s.dropped = false) : Happened s due s.happen := by
  have reached : max s.now (s.next?.getD s.now) = max s.now due := by rw [next, Option.getD_some]
  simp only [happen, reached]
  rw [next?] at next
  cases first : Clock.earliest? Pass.due s.passes with
  | none =>
      cases armed : s.scheduler.timer with
      | none =>
          rw [first, armed] at next
          cases next
      | some timer =>
          rw [first, armed] at next
          obtain rfl : timer.due = due := Option.some.inj next
          exact happened_fire armed
  | some pass =>
      rw [first] at next
      dsimp only
      split
      · exact happened_finish due kept (mem_of_earliest? first)
      · rename_i early
        cases armed : s.scheduler.timer with
        | none =>
            rw [armed] at next
            have same : pass.due = due := Option.some.inj next
            omega
        | some timer =>
            rw [armed] at next
            have same : min timer.due pass.due = due := Option.some.inj next
            obtain rfl : timer.due = due := by omega
            exact happened_fire armed

/-- What the clock does up to a limit: the timer runs out if it is due by then, at its time, and the
scheduler has no other part in it. -/
structure Waited (limit : Nat) (s s' : State) : Prop where
  dropped : s'.dropped = false
  scheduler : s'.scheduler =
    if (s.due? limit).isSome then s.scheduler.cancel else s.scheduler
  starts : begun s'.events =
    begun s.events ++ (s.due? limit).toList.map fun timer => (timer.due, timer.uri)

theorem due?_eq_none {s : State} {limit : Nat}
    (late : ∀ timer, s.scheduler.timer = some timer → limit < timer.due) : s.due? limit = none := by
  rw [due?, Option.filter_eq_none_iff]
  intro timer armed ready
  have := late timer armed
  have := of_decide_eq_true ready
  omega

theorem waited_of_late {s : State} {limit : Nat} (kept : s.dropped = false)
    (late : ∀ timer, s.scheduler.timer = some timer → limit < timer.due) : Waited limit s s := by
  have nothing := due?_eq_none late
  refine ⟨kept, ?_, ?_⟩
  · rw [nothing, Option.isSome_none, if_neg Bool.false_ne_true]
  · rw [nothing, Option.toList_none, List.map_nil, List.append_nil]

theorem Waited.of_ended {limit : Nat} {s s' s'' : State} (scheduler : s'.scheduler = s.scheduler)
    (starts : begun s'.events = begun s.events) (h : Waited limit s' s'') : Waited limit s s'' := by
  have due : s'.due? limit = s.due? limit := by rw [due?, scheduler, due?]
  refine ⟨h.dropped, ?_, ?_⟩
  · rw [h.scheduler, due, scheduler]
  · rw [h.starts, due, starts]

theorem Waited.of_fired {limit : Nat} {s s' s'' : State} {timer : Timer}
    (armed : s.scheduler.timer = some timer) (reached : timer.due ≤ limit)
    (scheduler : s'.scheduler = s.scheduler.cancel)
    (starts : begun s'.events = begun s.events ++ [(timer.due, timer.uri)])
    (h : Waited limit s' s'') : Waited limit s s'' := by
  have due : s.due? limit = some timer := by
    rw [due?, armed, Option.filter_some, if_pos (decide_eq_true reached)]
  have nothing : s'.due? limit = none := by
    rw [due?, scheduler]
    rfl
  refine ⟨h.dropped, ?_, ?_⟩
  · rw [h.scheduler, nothing, due, scheduler]
    rfl
  · rw [h.starts, nothing, due, starts]
    simp

theorem waited_run (fuel limit : Nat) {s : State} (enough : s.load ≤ fuel)
    (kept : s.dropped = false) (ahead : s.Ahead) :
    Waited limit s (Clock.run next? happen fuel limit s) := by
  induction fuel generalizing s with
  | zero =>
      refine waited_of_late kept ?_
      intro timer armed
      rw [load, armed, Option.toList_some, List.length_singleton] at enough
      omega
  | succ fuel ih =>
      cases next : s.next? with
      | none =>
          simp only [Clock.run, next]
          refine waited_of_late kept ?_
          intro timer armed
          obtain ⟨due, found, -⟩ := exists_next?_of_timer armed
          exact absurd (next.symm.trans found) nofun
      | some due =>
          simp only [Clock.run, next]
          split
          · rename_i reached
            cases happened_happen next kept with
            | ended scheduler dropped now fewer starts =>
                refine Waited.of_ended scheduler starts (ih ?_ (dropped.trans kept) ?_)
                · rw [load] at enough ⊢
                  rw [scheduler]
                  omega
                · intro timer armed
                  rw [scheduler] at armed
                  obtain ⟨due', found, le⟩ := exists_next?_of_timer armed
                  obtain rfl := Option.some.inj (next.symm.trans found)
                  rw [now]
                  exact Nat.max_le.mpr ⟨ahead timer armed, le⟩
            | @fired timer armed own scheduler dropped more starts =>
                have disarmed : s.happen.scheduler.timer = none :=
                  congrArg Scheduler.timer scheduler
                refine Waited.of_fired armed (own ▸ reached) scheduler ?_
                  (ih ?_ (dropped.trans kept) ?_)
                · have present : max s.now due = timer.due :=
                    own ▸ Nat.max_eq_right (ahead timer armed)
                  rw [starts, present]
                · rw [load, disarmed, more]
                  rw [load, armed] at enough
                  simp only [Option.toList_none, Option.toList_some, List.length_nil,
                    List.length_singleton] at enough ⊢
                  omega
                · intro later rearmed
                  exact absurd (disarmed.symm.trans rearmed) nofun
          · refine waited_of_late kept ?_
            intro timer armed
            obtain ⟨due', found, le⟩ := exists_next?_of_timer armed
            obtain rfl := Option.some.inj (next.symm.trans found)
            omega

theorem waited_waitUntil (time : Nat) {s : State} (kept : s.dropped = false) (ahead : s.Ahead) :
    Waited time s (s.waitUntil time) := by
  have enough : s.load ≤ s.passes.length + 2 := by
    rw [load]
    cases s.scheduler.timer <;> simp
  have waited := waited_run (s.passes.length + 2) time enough kept ahead
  exact ⟨waited.dropped, waited.scheduler, waited.starts⟩

/-- Nothing begins as long as the timer is not due. -/
theorem settle_of_late {s : State} (kept : s.dropped = false)
    (late : ∀ timer, s.scheduler.timer = some timer → s.now < timer.due) :
    s.settle.dropped = false ∧ s.settle.scheduler = s.scheduler ∧ s.settle.now = s.now ∧
      begun s.settle.events = begun s.events := by
  have waited := waited_waitUntil s.now kept fun timer armed => (late timer armed).le
  have nothing := due?_eq_none late
  refine ⟨waited.dropped, ?_, rfl, ?_⟩
  · rw [settle, waited.scheduler, nothing, Option.isSome_none, if_neg Bool.false_ne_true]
  · rw [settle, waited.starts, nothing, Option.toList_none, List.map_nil, List.append_nil]

end State

/-! ## What calls do -/

/-- What a call does to a scheduler. -/
def Request.apply (now : Nat) (s : Scheduler) : Request → Scheduler
  | .turnTo uri => s.turnTo now uri
  | .edited => s.schedule now .edit
  | .focused => s.schedule now .focus
  | .runNow => s.startNow.2
  | .cancel => s.cancel
  | .shutdown => s.shutdown

/-- A scheduler stands where calls have left it, whatever its timer has done since. -/
structure Standing (calls : List Timed) (s : Scheduler) : Prop where
  closed : s.closed = calls.any (·.request = .shutdown)
  active : s.active = activeAfter calls
  disarmed : s.closed = true → s.timer = none

theorem activeAfter_of_shutdown {calls : List Timed}
    (stopped : calls.any (·.request = .shutdown) = true) : activeAfter calls = none := by
  rw [activeAfter, if_pos stopped]

theorem activeAfter_concat {before : List Timed} (call : Timed)
    (serving : before.any (·.request = .shutdown) = false) :
    activeAfter (before ++ [call]) =
      if call.request = .shutdown then none
      else call.request.target?.getD (activeAfter before) := by
  rw [activeAfter, activeAfter, serving, List.any_append, serving, List.filterMap_append]
  cases turned : call.request.target? <;> simp [turned]

/-- A closed scheduler stays closed and idle. -/
theorem Request.apply_of_closed {s : Scheduler} (now : Nat) (request : Request)
    (closed : s.closed = true) (idle : s.active = none) (disarmed : s.timer = none) :
    (request.apply now s).closed = true ∧ (request.apply now s).active = none ∧
      (request.apply now s).timer = none := by
  cases request with
  | turnTo uri =>
      rw [apply, Scheduler.turnTo_of_closed now uri closed]
      exact ⟨closed, idle, disarmed⟩
  | edited =>
      rw [apply, Scheduler.schedule_of_closed now .edit closed]
      exact ⟨closed, idle, disarmed⟩
  | focused =>
      rw [apply, Scheduler.schedule_of_closed now .focus closed]
      exact ⟨closed, idle, disarmed⟩
  | runNow =>
      rw [apply, Scheduler.startNow_of_closed closed]
      exact ⟨closed, idle, rfl⟩
  | cancel => exact ⟨closed, idle, rfl⟩
  | shutdown => exact ⟨rfl, rfl, rfl⟩

/-- What a call leaves of a scheduler that has not been shut down. A trigger arms the timer for the
active document, every other call leaves it disarmed. -/
structure Leaves (call : Timed) (s s' : Scheduler) : Prop where
  closed : s'.closed = decide (call.request = .shutdown)
  active : s'.active =
    if call.request = .shutdown then none else call.request.target?.getD s.active
  timer : s'.timer.map (fun timer => (timer.due, timer.uri)) =
    if call.request.isTrigger then
      s'.active.map fun uri => (call.time + Trigger.quietPeriod, uri)
    else none

theorem leaves_schedule {s : Scheduler} {call : Timed} {trigger : Trigger}
    (serving : s.closed = false) (triggers : call.request.isTrigger = true)
    (stays : call.request.target? = none) (delay : trigger.delay = Trigger.quietPeriod) :
    Leaves call s (s.schedule call.time trigger) := by
  have goes : call.request ≠ .shutdown := by
    intro same
    rw [same] at triggers
    cases triggers
  refine ⟨?_, ?_, ?_⟩
  · rw [Scheduler.closed_schedule, serving, decide_eq_false goes]
  · rw [Scheduler.active_schedule, if_neg goes, stays, Option.getD_none]
  · rw [if_pos triggers]
    cases active : s.active with
    | none =>
        rw [Scheduler.schedule_of_none call.time trigger serving active, Scheduler.cancel, active]
        rfl
    | some uri =>
        rw [Scheduler.schedule_of_some call.time trigger serving active, delay]
        rfl

theorem leaves_apply {s : Scheduler} (call : Timed) (serving : s.closed = false) :
    Leaves call s (call.request.apply call.time s) := by
  obtain ⟨time, request⟩ := call
  cases request with
  | turnTo uri =>
      cases uri with
      | none =>
          rw [Request.apply, Scheduler.turnTo_none time serving]
          exact ⟨rfl, rfl, rfl⟩
      | some uri =>
          rw [Request.apply, Scheduler.turnTo_some time uri serving]
          exact ⟨rfl, rfl, rfl⟩
  | edited => exact leaves_schedule serving rfl rfl rfl
  | focused => exact leaves_schedule serving rfl rfl rfl
  | runNow =>
      cases active : s.active with
      | none =>
          rw [Request.apply, Scheduler.startNow_of_none active]
          exact ⟨serving, rfl, rfl⟩
      | some uri =>
          rw [Request.apply, Scheduler.startNow_of_some serving active]
          exact ⟨rfl, active.symm, rfl⟩
  | cancel => exact ⟨serving, rfl, rfl⟩
  | shutdown => exact ⟨rfl, rfl, rfl⟩

/-- A call leaves the scheduler as the calls so far say, and the timer as the last call has it. -/
theorem Standing.apply {before : List Timed} {s : Scheduler} (h : Standing before s)
    (call : Timed) :
    Standing (before ++ [call]) (call.request.apply call.time s) ∧
      (call.request.apply call.time s).timer.map (fun timer => (timer.due, timer.uri)) =
        armed? (before ++ [call]) := by
  have stopped := h.closed
  cases closed : s.closed with
  | true =>
      rw [closed] at stopped
      have idle : s.active = none := h.active.trans (activeAfter_of_shutdown stopped.symm)
      obtain ⟨still, none, disarmed⟩ :=
        call.request.apply_of_closed call.time closed idle (h.disarmed closed)
      have all : (before ++ [call]).any (·.request = .shutdown) = true := by
        rw [List.any_append, ← stopped, Bool.true_or]
      have inactive := activeAfter_of_shutdown all
      refine ⟨⟨still.trans all.symm, none.trans inactive.symm, fun _ => disarmed⟩, ?_⟩
      rw [disarmed, armed?_concat, inactive, Option.map_none, Option.map_none, ite_self]
  | false =>
      rw [closed] at stopped
      have leaves := leaves_apply call closed
      have all : (before ++ [call]).any (·.request = .shutdown) =
          decide (call.request = .shutdown) := by
        rw [List.any_append, ← stopped, Bool.false_or, List.any_cons, List.any_nil, Bool.or_false]
      have active : (call.request.apply call.time s).active = activeAfter (before ++ [call]) := by
        rw [leaves.active, h.active, activeAfter_concat call stopped.symm]
      refine ⟨⟨leaves.closed.trans all.symm, active, ?_⟩, ?_⟩
      · intro shut
        rw [leaves.closed] at shut
        rw [of_decide_eq_true shut]
        rfl
      · rw [leaves.timer, armed?_concat, active]

/-! ## Scripts -/

/-- A state directly after calls, with the row of the last of them written. -/
structure Rests (before : List Timed) (s : State) : Prop where
  dropped : s.dropped = false
  events : s.events = []
  standing : Standing before s.scheduler
  timer : s.scheduler.timer.map (fun timer => (timer.due, timer.uri)) = armed? before
  deadline : ∀ armed, armed? before = some armed → armed.1 = s.now + Trigger.quietPeriod

/-- The next row starts with no events. -/
def State.reset (s : State) : State := { s with events := [], answer := none }

theorem begunIn_cons (kind : Step → Bool) {s : State} (first : Step) (steps : List Step)
    (kept : s.dropped = false) :
    begunIn kind s (first :: steps) =
      (if kind first then begun (first.perform s).events else []) ++
        begunIn kind (first.perform s).reset steps := by
  have stepped : step s first = ((first.perform s).reset, (step s first).2) := by
    rw [step, kept, Bool.false_and, if_neg Bool.false_ne_true]
    rfl
  have shown : (step s first).2.events = (first.perform s).events := by
    rw [step, kept, Bool.false_and, if_neg Bool.false_ne_true]
  rw [begunIn, run, stepped]
  dsimp only
  rw [List.zip_cons_cons, List.filter_cons]
  split
  · rw [List.flatMap_cons, shown]
    rfl
  · rfl

/-- What a call does before everything settles that needs no time: it acts on the scheduler, and
begins a measurement if it runs a pass now. -/
theorem exists_unsettled {before : List Timed} {s : State} (standing : Standing before s.scheduler)
    (request : Request) :
    ∃ s' : State, request.step.perform s = s'.settle ∧ s'.dropped = s.dropped ∧ s'.now = s.now ∧
      s'.scheduler = request.apply s.now s.scheduler ∧
      begun s'.events = begun s.events ++
        (if request = .runNow then (activeAfter before).map (s.now, ·) else none).toList := by
  by_cases manual : request = .runNow
  · subst manual
    rw [if_pos rfl]
    cases active : activeAfter before with
    | none =>
        have idle := Scheduler.startNow_of_none (standing.active.trans active)
        refine ⟨({ s with scheduler := s.scheduler.cancel }).record (.finished .noDocument),
          ?_, rfl, rfl, ?_, ?_⟩
        · simp only [Request.step, Step.perform, idle]
        · rw [Request.apply, idle]
          rfl
        · rw [State.begun_record]
          rfl
    | some uri =>
        have serving : s.scheduler.closed = false := by
          cases closed : s.scheduler.closed with
          | false => rfl
          | true =>
              have none := activeAfter_of_shutdown (standing.closed.symm.trans closed)
              exact absurd (none.symm.trans active) nofun
        have started := Scheduler.startNow_of_some serving (standing.active.trans active)
        refine ⟨({ s with scheduler := s.scheduler.startNow.2 }).begin .background
          (uri, s.scheduler.generation + 1), ?_, rfl, rfl, rfl, ?_⟩
        · simp only [Request.step, Step.perform, started]
        · exact State.begun_record { s with scheduler := s.scheduler.startNow.2 } (.measure uri)
  · refine ⟨{ s with scheduler := request.apply s.now s.scheduler }, ?_, rfl, rfl, rfl, ?_⟩
    · cases request with
      | runNow => exact absurd rfl manual
      | _ => rfl
    · rw [if_neg manual, Option.toList_none, List.append_nil]

/-- A call begins a measurement only if it runs a pass now, and arms the timer for later. -/
theorem perform_request {before : List Timed} {s : State} (kept : s.dropped = false)
    (standing : Standing before s.scheduler) {call : Timed} (present : s.now = call.time) :
    (call.request.step.perform s).dropped = false ∧
      (call.request.step.perform s).scheduler = call.request.apply call.time s.scheduler ∧
      (call.request.step.perform s).now = call.time ∧
      begun (call.request.step.perform s).events =
        begun s.events ++
          (if call.request = .runNow then (activeAfter before).map (call.time, ·)
            else none).toList := by
  obtain ⟨s', performed, dropped, now, scheduler, starts⟩ := exists_unsettled standing call.request
  rw [present] at now scheduler starts
  have late : ∀ timer, s'.scheduler.timer = some timer → s'.now < timer.due := by
    intro timer armed
    have deadline := (standing.apply call).2
    rw [← scheduler, armed, Option.map_some] at deadline
    have own : timer.due = call.time + Trigger.quietPeriod := deadline_of_armed? deadline.symm
    rw [now, own]
    exact Nat.lt_add_of_pos_right (by decide)
  rw [performed, ← scheduler, ← starts, ← now]
  exact State.settle_of_late (dropped.trans kept) late

/-- While a script waits, the timer runs out if its deadline comes. -/
theorem Rests.wait {before : List Timed} {s : State} (h : Rests before s) (time : Nat) :
    (s.waitUntil time).dropped = false ∧ Standing before (s.waitUntil time).scheduler ∧
      begun (s.waitUntil time).events =
        ((armed? before).filter fun armed => armed.1 ≤ time).toList := by
  have ahead : s.Ahead := by
    intro timer armed
    have own := h.timer
    rw [armed, Option.map_some] at own
    have due : timer.due = s.now + Trigger.quietPeriod := h.deadline _ own.symm
    omega
  have waited := State.waited_waitUntil time h.dropped ahead
  refine ⟨waited.dropped, ?_, ?_⟩
  · rw [waited.scheduler]
    split
    · exact ⟨h.standing.closed, h.standing.active, fun _ => rfl⟩
    · exact h.standing
  · rw [waited.starts, h.events, State.due?, ← h.timer]
    cases s.scheduler.timer with
    | none => rfl
    | some timer =>
        rw [Option.map_some, Option.filter_some, Option.filter_some]
        split <;> rfl

/-- One call of a script: the script waits until it is due and then makes it. -/
theorem Rests.call {before : List Timed} {s : State} (h : Rests before s) {call : Timed}
    (later : s.now ≤ call.time) :
    ∃ s', Rests (before ++ [call]) s' ∧ s'.now = call.time ∧ ∀ kind steps,
      begunIn kind s (.sleep (call.time - s.now) :: call.request.step :: steps) =
        (if kind (.sleep (call.time - s.now)) then
            ((armed? before).filter fun armed => armed.1 ≤ call.time).toList else []) ++
          ((if kind call.request.step then
              (if call.request = .runNow then (activeAfter before).map (call.time, ·)
                else none).toList else []) ++
            begunIn kind s' steps) := by
  obtain ⟨waited, standing, fired⟩ := h.wait call.time
  have slept : (Step.sleep (call.time - s.now)).perform s = s.waitUntil call.time := by
    rw [Step.perform, Nat.add_sub_of_le later]
  obtain ⟨dropped, scheduler, now, starts⟩ :=
    perform_request (s := (s.waitUntil call.time).reset) waited standing rfl
  obtain ⟨standing', timer'⟩ := standing.apply call
  refine ⟨(call.request.step.perform (s.waitUntil call.time).reset).reset, ?_, now, ?_⟩
  · refine ⟨dropped, rfl, ?_, ?_, ?_⟩
    · rw [State.reset, scheduler]
      exact standing'
    · rw [State.reset, scheduler]
      exact timer'
    · intro armed deadline
      rw [State.reset, now]
      exact deadline_of_armed? deadline
  · intro kind steps
    rw [begunIn_cons kind _ _ h.dropped, slept, fired,
      begunIn_cons kind (s := (s.waitUntil call.time).reset) _ _ waited, starts]
    rfl

theorem filter_armed?_congr {before : List Timed} {p q : Nat × Uri → Bool}
    (same : ∀ armed, armed? before = some armed → p armed = q armed) :
    (armed? before).filter p = (armed? before).filter q := by
  cases deadline : armed? before with
  | none => rfl
  | some armed => rw [Option.filter_some, Option.filter_some, same armed deadline]

/-- The timer runs out as often as it is owed to calls. -/
theorem begunIn_sleeps {patience : Nat} (patient : Trigger.quietPeriod ≤ patience)
    (calls : List Timed) {before : List Timed} {s : State} (h : Rests before s)
    (later : ∀ call ∈ calls, s.now ≤ call.time)
    (ordered : calls.Pairwise fun earlier later => earlier.time ≤ later.time)
    (untied : isUntied before calls = true) :
    begunIn Step.isSleep s (script patience s.now calls) =
      ((armed? before).filter fun armed => ∀ later ∈ calls, armed.1 < later.time).toList ++
        owed before calls := by
  induction calls generalizing before s with
  | nil =>
      obtain ⟨-, -, fired⟩ := h.wait (s.now + patience)
      have reached : (armed? before).filter (fun armed => armed.1 ≤ s.now + patience) =
          (armed? before).filter fun armed => ∀ later ∈ [], armed.1 < Timed.time later := by
        refine filter_armed?_congr fun armed deadline => ?_
        have due := h.deadline armed deadline
        rw [decide_eq_decide]
        exact iff_of_true (by omega) nofun
      rw [script, begunIn_cons _ _ _ h.dropped, Step.perform, fired, reached, owed]
      rfl
  | cons call calls ih =>
      obtain ⟨s', rests, now, starts⟩ := h.call (later call List.mem_cons_self)
      obtain ⟨first, ordered⟩ := List.pairwise_cons.mp ordered
      obtain ⟨apart, untied⟩ := Bool.and_eq_true_iff.mp untied
      have rest := ih rests (now ▸ first) ordered untied
      rw [now] at rest
      -- With no call on the deadline it has come before this call, or this call comes in time.
      have quiet : (armed? before).filter (fun armed => armed.1 ≤ call.time) =
          (armed? before).filter fun armed => ∀ later ∈ call :: calls, armed.1 < later.time := by
        refine filter_armed?_congr fun armed deadline => ?_
        rw [deadline, Option.all_some, decide_eq_true_iff] at apart
        rw [decide_eq_decide, List.forall_mem_cons]
        constructor
        · intro past
          have before : armed.1 < call.time := by omega
          exact ⟨before, fun later member => before.trans_le (first later member)⟩
        · intro quiet
          exact quiet.1.le
      have called : Step.isSleep call.request.step = false := by
        cases call.request <;> rfl
      rw [script, starts, rest, quiet, called, owed]
      rfl

theorem begunIn_calls (patience : Nat) (calls : List Timed) {before : List Timed} {s : State}
    (h : Rests before s) (later : ∀ call ∈ calls, s.now ≤ call.time)
    (ordered : calls.Pairwise fun earlier later => earlier.time ≤ later.time) :
    begunIn (!·.isSleep) s (script patience s.now calls) = asked before calls := by
  induction calls generalizing before s with
  | nil =>
      rw [script, begunIn_cons _ _ _ h.dropped]
      rfl
  | cons call calls ih =>
      obtain ⟨s', rests, now, starts⟩ := h.call (later call List.mem_cons_self)
      obtain ⟨first, ordered⟩ := List.pairwise_cons.mp ordered
      have rest := ih rests (now ▸ first) ordered
      rw [now] at rest
      have called : Step.isSleep call.request.step = false := by
        cases call.request <;> rfl
      rw [script, starts, rest, called, asked]
      rfl

/-! ## Bursts -/

theorem exists_of_mem_owed {before calls : List Timed} {measurement : Nat × Uri}
    (member : measurement ∈ owed before calls) :
    ∃ call ∈ calls, measurement.1 = call.time + Trigger.quietPeriod := by
  induction calls generalizing before with
  | nil => cases member
  | cons call calls ih =>
      rcases List.mem_append.mp member with own | rest
      · have armed := (Option.filter_eq_some_iff.mp (Option.mem_toList.mp own)).1
        exact ⟨call, List.mem_cons_self, deadline_of_armed? armed⟩
      · obtain ⟨later, inside, due⟩ := ih rest
        exact ⟨later, List.mem_cons_of_mem call inside, due⟩

/-- What is owed to earlier calls comes before every later call. -/
theorem filter_owed_append {window : Nat × Uri → Bool} {before earlier later : List Timed}
    (outside : ∀ measurement : Nat × Uri, (∀ call ∈ later, measurement.1 < call.time) →
      window measurement = false) :
    (owed before (earlier ++ later)).filter window =
      (owed (before ++ earlier) later).filter window := by
  induction earlier generalizing before with
  | nil => rw [List.nil_append, List.append_nil]
  | cons call earlier ih =>
      have none : (((armed? (before ++ [call])).filter fun armed =>
          ∀ later' ∈ earlier ++ later, armed.1 < later'.time).toList).filter window = [] := by
        rw [List.filter_eq_nil_iff]
        intro measurement member
        have quiet := (Option.filter_eq_some_iff.mp (Option.mem_toList.mp member)).2
        rw [outside measurement fun later inside =>
          of_decide_eq_true quiet later (List.mem_append_right earlier inside)]
        exact Bool.false_ne_true
      rw [List.cons_append, owed, List.filter_append, none, List.nil_append, ih, List.append_assoc,
        List.singleton_append]

theorem owed_cons_of_early {before after : List Timed} {call next : Timed}
    (early : next.time < call.time + Trigger.quietPeriod) :
    owed before (call :: next :: after) = owed (before ++ [call]) (next :: after) := by
  have none : (armed? (before ++ [call])).filter (fun armed =>
      ∀ later ∈ next :: after, armed.1 < later.time) = none := by
    rw [Option.filter_eq_none_iff]
    intro armed deadline quiet
    have own := deadline_of_armed? deadline
    have late := of_decide_eq_true quiet next List.mem_cons_self
    omega
  rw [owed, none, Option.toList_none, List.nil_append]

/-- Of a burst only the last call is owed anything. -/
theorem owed_of_gaps {burst : List Timed} {before after : List Timed} {last : Timed}
    (gaps : (burst ++ [last]).IsChain fun earlier later =>
      later.time < earlier.time + Trigger.quietPeriod) :
    owed before (burst ++ last :: after) = owed (before ++ burst) (last :: after) := by
  induction burst generalizing before with
  | nil => rw [List.nil_append, List.append_nil]
  | cons call burst ih =>
      cases burst with
      | nil =>
          have early : last.time < call.time + Trigger.quietPeriod := by simpa using gaps
          exact owed_cons_of_early early
      | cons next burst =>
          obtain ⟨early, rest⟩ := List.isChain_cons_cons.mp gaps
          have tail : owed (before ++ [call]) (next :: (burst ++ last :: after)) = _ := ih rest
          rw [List.cons_append, List.cons_append, owed_cons_of_early early, tail,
            List.append_assoc, List.singleton_append]

/-- A burst is owed one measurement, a quiet period after its last call, if no call comes before. -/
theorem owed_of_burst {before burst after : List Timed} {first last : Timed} {uri : Uri}
    (isBurst : IsBurst burst) (begins : burst.head? = some first)
    (ends : burst.getLast? = some last)
    (forward : first.time ≤ last.time)
    (quiet : ∀ later ∈ after, last.time + Trigger.quietPeriod < later.time)
    (active : activeAfter (before ++ burst) = some uri) :
    (owed [] (before ++ burst ++ after)).filter (fun measurement =>
        first.time ≤ measurement.1 ∧ measurement.1 ≤ last.time + Trigger.quietPeriod) =
      [(last.time + Trigger.quietPeriod, uri)] := by
  have earlier : ∀ measurement : Nat × Uri,
      (∀ call ∈ burst ++ after, measurement.1 < call.time) →
      decide (first.time ≤ measurement.1 ∧ measurement.1 ≤ last.time + Trigger.quietPeriod) =
        false := by
    intro measurement past
    have := past first (List.mem_append_left after (List.mem_of_head? begins))
    exact decide_eq_false (by omega)
  have later : (owed (before ++ burst) after).filter (fun measurement =>
      first.time ≤ measurement.1 ∧ measurement.1 ≤ last.time + Trigger.quietPeriod) = [] := by
    rw [List.filter_eq_nil_iff]
    intro measurement member
    obtain ⟨call, inside, due⟩ := exists_of_mem_owed member
    have := quiet call inside
    rw [decide_eq_true_iff]
    omega
  rw [List.append_assoc, filter_owed_append earlier, List.nil_append]
  obtain ⟨start, rfl⟩ := List.getLast?_eq_some_iff.mp ends
  have triggers := isBurst.triggers last
    (List.mem_append_right start (List.mem_singleton_self last))
  have armed : armed? (before ++ start ++ [last]) =
      some (last.time + Trigger.quietPeriod, uri) := by
    rw [armed?_concat, if_pos triggers, List.append_assoc, active, Option.map_some]
  rw [List.append_assoc, List.singleton_append, owed_of_gaps isBurst.gaps, owed, armed,
    Option.filter_some, if_pos (decide_eq_true quiet), Option.toList_some, List.singleton_append,
    List.filter_cons_of_pos (by rw [decide_eq_true_iff]; dsimp only; omega), List.append_assoc,
    later]

/-- A call to run a pass now leaves nothing to come until the next call. -/
theorem owed_of_manual {before after : List Timed} {trigger manual : Timed}
    (asked : manual.request = .runNow) (early : manual.time < trigger.time + Trigger.quietPeriod) :
    (owed [] (before ++ trigger :: manual :: after)).filter (fun measurement =>
        trigger.time ≤ measurement.1 ∧ ∀ later ∈ after, measurement.1 ≤ later.time) = [] := by
  have earlier : ∀ measurement : Nat × Uri,
      (∀ call ∈ trigger :: manual :: after, measurement.1 < call.time) →
      decide (trigger.time ≤ measurement.1 ∧ ∀ later ∈ after, measurement.1 ≤ later.time) =
        false := by
    intro measurement past
    have := past trigger List.mem_cons_self
    exact decide_eq_false (by omega)
  have disarmed : armed? (before ++ [trigger] ++ [manual]) = none := by
    rw [armed?_concat, asked]
    rfl
  rw [filter_owed_append earlier, List.nil_append, owed_cons_of_early early, owed, disarmed,
    Option.filter_none, Option.toList_none, List.nil_append, List.filter_eq_nil_iff]
  intro measurement member
  obtain ⟨call, inside, due⟩ := exists_of_mem_owed member
  rw [decide_eq_true_iff]
  rintro ⟨-, past⟩
  have := past call inside
  have : 0 < Trigger.quietPeriod := by decide
  omega

theorem rests_initial (settings : Settings) : Rests [] { settings } :=
  ⟨rfl, rfl, ⟨rfl, rfl, nofun⟩, rfl, nofun⟩

/-- Whatever measurements take and find: while a script only waits, exactly those measurements begin
that are owed to its calls, and all others are begun by calls to run a pass now. So a burst has one
measurement, a quiet period after its last call, and a call to run a pass now in a quiet period
leaves nothing to come. -/
theorem debounced_measurements (settings : Settings) (patience : Nat) (calls : List Timed)
    (patient : Trigger.quietPeriod ≤ patience)
    (ordered : calls.Pairwise fun earlier later => earlier.time ≤ later.time)
    (untied : isUntied [] calls = true) :
    debounced settings patience calls = owed [] calls ∧
      immediate settings patience calls = asked [] calls ∧
      (∀ before burst after first last uri, calls = before ++ burst ++ after → IsBurst burst →
        burst.head? = some first → burst.getLast? = some last →
        (∀ later ∈ after, last.time + Trigger.quietPeriod < later.time) →
        activeAfter (before ++ burst) = some uri →
        (debounced settings patience calls).filter (fun measurement =>
            first.time ≤ measurement.1 ∧ measurement.1 ≤ last.time + Trigger.quietPeriod) =
          [(last.time + Trigger.quietPeriod, uri)]) ∧
      ∀ before trigger manual after, calls = before ++ trigger :: manual :: after →
        manual.request = .runNow → manual.time < trigger.time + Trigger.quietPeriod →
        (debounced settings patience calls).filter (fun measurement =>
            trigger.time ≤ measurement.1 ∧ ∀ later ∈ after, measurement.1 ≤ later.time) = [] := by
  have rests := rests_initial settings
  have sleeps : debounced settings patience calls = owed [] calls :=
    begunIn_sleeps patient calls rests (fun call _ => Nat.zero_le call.time) ordered untied
  refine ⟨sleeps, begunIn_calls patience calls rests (fun call _ => Nat.zero_le call.time) ordered,
    ?_, ?_⟩
  · intro before burst after first last uri split isBurst begins ends quiet active
    rw [sleeps, split]
    refine owed_of_burst isBurst begins ends ?_ quiet active
    rw [split, List.append_assoc] at ordered
    have inside := (List.pairwise_append.mp (List.pairwise_append.mp ordered).2.1).1
    obtain ⟨rest, rfl⟩ := List.head?_eq_some_iff.mp begins
    rcases List.mem_cons.mp (List.mem_of_getLast? ends) with same | later
    · rw [same]
    · exact (List.pairwise_cons.mp inside).1 last later
  · intro before trigger manual after split asked early
    rw [sleeps, split]
    exact owed_of_manual asked early

/-- A document that is edited in a burst and left alone, and then edited once more and measured by
hand before the quiet period is over. -/
def editing : List Timed :=
  [⟨10, .turnTo (some ⟨"untitled", none, "a", none, none⟩)⟩, ⟨200, .edited⟩, ⟨440, .edited⟩,
    ⟨700, .edited⟩, ⟨800, .runNow⟩, ⟨2000, .focused⟩, ⟨2100, .cancel⟩]

theorem debounced_measurements_editing :
    isUntied [] editing = true ∧
      debounced { latency := 40 } 300 editing = [(690, ⟨"untitled", none, "a", none, none⟩)] ∧
      immediate { latency := 40 } 300 editing = [(800, ⟨"untitled", none, "a", none, none⟩)] ∧
      (debounced { latency := 40 } 300 editing).filter (fun measurement =>
          10 ≤ measurement.1 ∧ measurement.1 ≤ 690) =
        [(690, ⟨"untitled", none, "a", none, none⟩)] ∧
      (debounced { latency := 40 } 300 editing).filter (fun measurement =>
          700 ≤ measurement.1 ∧ ∀ later ∈ editing.drop 5, measurement.1 ≤ later.time) = [] := by
  have untied : isUntied [] editing = true := by decide
  obtain ⟨sleeps, calls, bursts, manual⟩ :=
    debounced_measurements { latency := 40 } 300 editing (by decide) (by decide) untied
  refine ⟨untied, sleeps.trans (by decide), calls.trans (by decide), ?_, ?_⟩
  · exact bursts [] (editing.take 3) (editing.drop 3) ⟨10, _⟩ ⟨440, _⟩ _ rfl
      ⟨by decide, by decide⟩ rfl rfl (by decide) rfl
  · exact manual (editing.take 3) ⟨700, .edited⟩ ⟨800, .runNow⟩ (editing.drop 5) rfl rfl (by decide)

end FunctionMeter.Simulation
