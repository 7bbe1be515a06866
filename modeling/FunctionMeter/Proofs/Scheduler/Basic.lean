import FunctionMeter.Scheduler.Basic
import Mathlib

/-!
# What the calls of a scheduler do

One equation for each call and each state in which it may be made. A call either has no effect on
the generation, or it takes a new one; in the second case it leaves a timer armed for the active
document, or it begins a pass for it, or no document is active any more.
-/

namespace FunctionMeter.Scheduler

variable {s : Scheduler} {uri : Uri}

theorem schedule_of_closed (now : Nat) (trigger : Trigger) (closed : s.closed = true) :
    s.schedule now trigger = s := by
  rw [schedule, if_pos closed]

theorem schedule_of_none (now : Nat) (trigger : Trigger) (serving : s.closed = false)
    (idle : s.active = none) : s.schedule now trigger = s.cancel := by
  simp only [schedule, serving, Bool.false_eq_true, if_false, idle]

theorem schedule_of_some (now : Nat) (trigger : Trigger) (serving : s.closed = false)
    (active : s.active = some uri) :
    s.schedule now trigger =
      ⟨some uri, some ⟨uri, s.generation + 1, now + trigger.delay⟩, false, s.generation + 1⟩ := by
  simp only [schedule, serving, Bool.false_eq_true, if_false, active, advance]

theorem turnTo_of_closed (now : Nat) (uri : Option Uri) (closed : s.closed = true) :
    s.turnTo now uri = s := by
  rw [turnTo, if_pos closed]

theorem turnTo_none (now : Nat) (serving : s.closed = false) :
    s.turnTo now none = ⟨none, none, false, s.generation + 1⟩ := by
  have still : (s.pointAt none).advance.closed = false := serving
  simp only [turnTo, serving, Bool.false_eq_true, if_false]
  rw [schedule_of_none _ _ still rfl]
  simp only [cancel, advance, pointAt, serving]

theorem turnTo_some (now : Nat) (uri : Uri) (serving : s.closed = false) :
    s.turnTo now (some uri) =
      ⟨some uri, some ⟨uri, s.generation + 2, now + Trigger.quietPeriod⟩, false,
        s.generation + 2⟩ := by
  have still : (s.pointAt (some uri)).advance.closed = false := serving
  simp only [turnTo, serving, Bool.false_eq_true, if_false]
  rw [schedule_of_some _ _ still rfl]
  rfl

theorem startNow_of_closed (closed : s.closed = true) : s.startNow = (none, s.cancel) := by
  simp only [startNow, cancel, closed, if_true]

theorem startNow_of_none (idle : s.active = none) : s.startNow = (none, s.cancel) := by
  cases closed : s.closed with
  | true => exact startNow_of_closed closed
  | false => simp only [startNow, cancel, closed, Bool.false_eq_true, if_false, idle]

theorem startNow_of_some (serving : s.closed = false) (active : s.active = some uri) :
    s.startNow =
      (some (uri, s.generation + 1), ⟨some uri, none, false, s.generation + 1⟩) := by
  simp only [startNow, cancel, advance, serving, Bool.false_eq_true, if_false, active]

/-- A pass that begins at once is for the active document, and it takes a new generation. -/
theorem startNow_eq_some {pass : Uri × Nat} (started : s.startNow.1 = some pass) :
    s.closed = false ∧ s.active = some pass.1 ∧ pass.2 = s.generation + 1 := by
  cases closed : s.closed with
  | true =>
      rw [startNow_of_closed closed] at started
      cases started
  | false =>
      cases active : s.active with
      | none =>
          rw [startNow_of_none active] at started
          cases started
      | some uri =>
          rw [startNow_of_some closed active] at started
          obtain rfl := Option.some.inj started
          exact ⟨rfl, rfl, rfl⟩

theorem fire_of_some {timer : Timer} (armed : s.timer = some timer) :
    s.fire = (some (timer.uri, timer.generation), s.cancel) := by
  rw [fire, armed, Option.map_some]

theorem fire_of_none (disarmed : s.timer = none) : s.fire = (none, s.cancel) := by
  rw [fire, disarmed, Option.map_none]

theorem active_schedule (s : Scheduler) (now : Nat) (trigger : Trigger) :
    (s.schedule now trigger).active = s.active := by
  rw [schedule]
  split
  · rfl
  · split <;> rfl

theorem closed_schedule (s : Scheduler) (now : Nat) (trigger : Trigger) :
    (s.schedule now trigger).closed = s.closed := by
  rw [schedule]
  split
  · rfl
  · split <;> rfl

theorem closed_startNow (s : Scheduler) : s.startNow.2.closed = s.closed := by
  rw [startNow]
  split
  · rfl
  · split <;> rfl

/-- A scheduler turns to another document unless it is closed. -/
theorem active_turnTo (now : Nat) (uri : Option Uri) (serving : s.closed = false) :
    (s.turnTo now uri).active = uri := by
  cases uri with
  | none => rw [turnTo_none now serving]
  | some uri => rw [turnTo_some now uri serving]

theorem generation_turnTo (now : Nat) (uri : Option Uri) (serving : s.closed = false) :
    s.generation < (s.turnTo now uri).generation := by
  cases uri with
  | none =>
      rw [turnTo_none now serving]
      exact Nat.lt_succ_self _
  | some uri =>
      rw [turnTo_some now uri serving]
      exact Nat.lt_add_of_pos_right (by decide)

theorem generation_schedule (now : Nat) (trigger : Trigger) (serving : s.closed = false)
    (active : s.active = some uri) : s.generation < (s.schedule now trigger).generation := by
  rw [schedule_of_some now trigger serving active]
  exact Nat.lt_succ_self _

end FunctionMeter.Scheduler
