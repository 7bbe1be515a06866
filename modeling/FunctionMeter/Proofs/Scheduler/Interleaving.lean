import FunctionMeter.Proofs.Scheduler.System
import Mathlib

/-!
# Calls that overlap

A scheduler is shared, and only the steps of a call that hold its lock are indivisible. A turn to
another document points the scheduler at it, takes a generation and then starts the quiet period,
and a shutdown closes the scheduler and then takes a generation. Between these steps anything else
may happen, so that a turn may put a timer out of date which another call has only just armed.

`Effect` says once what a step can do. A step that leaves the latest generation without its pass
leaves a turn behind that has not returned, or no document to be measured.
-/

namespace FunctionMeter.Scheduler

/-- Where a call stands that has given back the lock and has not returned. -/
inductive Stage where
  /-- A turn has set the active document. -/
  | pointed
  /-- A turn has also taken a generation. -/
  | advanced
  /-- A shutdown has closed the scheduler. -/
  | closing
  deriving DecidableEq

/-- A scheduler with its passes and with the calls that are midway, the last begun first. -/
structure Interleaving extends System where
  finished : List (Uri × Nat) := []
  calls : List Stage := []

namespace Interleaving

/-- What can happen: the first step of a call, a further step of the call at some place among those
that are midway, and what timers and passes do. -/
inductive Action where
  | turnTo (uri : Option Uri)
  | schedule (now : Nat) (trigger : Trigger)
  | startNow
  | shutdown
  | resume (place : Nat) (now : Nat)
  | fire
  | finish (generation : Nat)

def step (s : Interleaving) : Action → Interleaving
  | .turnTo uri =>
    if s.scheduler.closed then s
    else { s with scheduler := s.scheduler.pointAt uri, calls := .pointed :: s.calls }
  | .schedule now trigger => { s with scheduler := s.scheduler.schedule now trigger }
  | .startNow => { s with toSystem := s.begin s.scheduler.startNow }
  | .shutdown => { s with scheduler := s.scheduler.close, calls := .closing :: s.calls }
  | .resume place now =>
    match s.calls[place]? with
    | none => s
    | some .pointed =>
      { s with scheduler := s.scheduler.advance, calls := s.calls.set place .advanced }
    | some .advanced =>
      { s with scheduler := s.scheduler.schedule now .focus, calls := s.calls.eraseIdx place }
    | some .closing =>
      { s with scheduler := s.scheduler.advance, calls := s.calls.eraseIdx place }
  | .fire => { s with toSystem := s.begin s.scheduler.fire }
  | .finish generation =>
    { s with
      passes := s.passes.filter (·.2 ≠ generation)
      finished := s.passes.filter (·.2 = generation) ++ s.finished }

def run (s : Interleaving) (actions : List Action) : Interleaving := actions.foldl step s

/-- A turn that nothing interrupts is what `Scheduler.turnTo` does. -/
theorem run_turnTo (s : Interleaving) (now : Nat) (uri : Option Uri)
    (serving : s.scheduler.closed = false) :
    s.run [.turnTo uri, .resume 0 now, .resume 0 now] =
      { s with scheduler := s.scheduler.turnTo now uri } := by
  simp [run, step, turnTo, serving]

/-- A shutdown that nothing interrupts is what `Scheduler.shutdown` does. -/
theorem run_shutdown (s : Interleaving) (now : Nat) :
    s.run [.shutdown, .resume 0 now] = { s with scheduler := s.scheduler.shutdown } := by
  simp [run, step, shutdown]

/-- The passes that have not been cancelled: the one that an armed timer will begin, those under
way, and those that have finished. -/
def carriers (s : Interleaving) : List (Uri × Nat) :=
  (s.scheduler.timer.map fun t => (t.uri, t.generation)).toList ++ (s.passes ++ s.finished)

/-! ## What a step can do -/

/-- A step moves carriers about, or it loses some and may take a generation for none, or it takes a
generation for a new carrier, which is for the active document. It can do the second only where
nobody counts on the latest generation: while a call is midway, behind a shutdown, or without an
active document. -/
inductive Effect (s s' : Interleaving) : Prop
  | moved (active : s'.scheduler.active = s.scheduler.active)
      (closed : s'.scheduler.closed = s.scheduler.closed) (calls : s'.calls = s.calls)
      (generation : s'.scheduler.generation = s.scheduler.generation)
      (carriers : s'.carriers.Perm s.carriers)
  | lost (carriers : s'.carriers.Subperm s.carriers)
      (later : s.scheduler.generation ≤ s'.scheduler.generation)
      (excused : s'.calls ≠ [] ∨ s'.scheduler.closed = true ∨ s'.scheduler.active = none)
  | created {uri : Uri} (active : s'.scheduler.active = some uri)
      (later : s.scheduler.generation < s'.scheduler.generation)
      (carriers : s'.carriers.Perm ((uri, s'.scheduler.generation) :: s.passes ++ s.finished))

/-- The carriers without that of the timer. -/
theorem subperm_carriers (s : Interleaving) : (s.passes ++ s.finished).Subperm s.carriers :=
  (List.sublist_append_right _ _).subperm

theorem Effect.refl (s : Interleaving) : Effect s s := .moved rfl rfl rfl rfl (.refl _)

-- The calls that are midway play no part, so that the last step of a turn is a case of this too.
theorem effect_schedule (s : Interleaving) (now : Nat) (trigger : Trigger) (calls : List Stage) :
    Effect s { s with scheduler := s.scheduler.schedule now trigger, calls } := by
  cases closed : s.scheduler.closed with
  | true =>
      rw [schedule_of_closed now trigger closed]
      exact .lost (.refl _) le_rfl (.inr (.inl closed))
  | false =>
      cases active : s.scheduler.active with
      | none =>
          rw [schedule_of_none now trigger closed active]
          exact .lost s.subperm_carriers le_rfl (.inr (.inr active))
      | some uri =>
          rw [schedule_of_some now trigger closed active]
          exact .created rfl (Nat.lt_succ_self _) (.refl _)

theorem effect_startNow (s : Interleaving) : Effect s (s.step .startNow) := by
  cases closed : s.scheduler.closed with
  | true =>
      rw [step, startNow_of_closed closed]
      refine .lost ?_ le_rfl (.inr (.inl closed))
      simpa [carriers, System.begin, cancel] using s.subperm_carriers
  | false =>
      cases active : s.scheduler.active with
      | none =>
          rw [step, startNow_of_none active]
          refine .lost ?_ le_rfl (.inr (.inr active))
          simpa [carriers, System.begin, cancel] using s.subperm_carriers
      | some uri =>
          rw [step, startNow_of_some closed active]
          refine .created rfl (Nat.lt_succ_self _) ?_
          simp [carriers, System.begin]

theorem effect_fire (s : Interleaving) : Effect s (s.step .fire) := by
  refine .moved rfl rfl rfl rfl ?_
  simp only [step, fire, carriers, System.begin, cancel, Option.map_none, Option.toList_none,
    List.nil_append]
  rw [← List.append_assoc]
  exact List.perm_append_comm.append_right _

theorem effect_finish (s : Interleaving) (generation : Nat) :
    Effect s (s.step (.finish generation)) := by
  refine .moved rfl rfl rfl rfl ?_
  refine List.Perm.append_left _ ?_
  simp only [step]
  rw [← List.append_assoc]
  refine List.Perm.append_right _ ?_
  simpa using List.perm_append_comm.trans (List.filter_append_perm (·.2 = generation) s.passes)

theorem effect_resume (s : Interleaving) (place now : Nat)
    (closing : Stage.closing ∈ s.calls → s.scheduler.closed = true) :
    Effect s (s.step (.resume place now)) := by
  cases call : s.calls[place]? with
  | none =>
      simp only [step, call]
      exact .refl s
  | some stage =>
      have midway := List.mem_of_getElem? call
      cases stage with
      | pointed =>
          simp only [step, call]
          refine .lost (.refl _) (Nat.le_succ _) (.inl ?_)
          simpa using List.ne_nil_of_mem midway
      | advanced =>
          simp only [step, call]
          exact effect_schedule s now .focus _
      | closing =>
          simp only [step, call]
          exact .lost (.refl _) (Nat.le_succ _) (.inr (.inl (closing midway)))

/-- Every step has one of the effects. -/
theorem effect_step (s : Interleaving) (a : Action)
    (closing : Stage.closing ∈ s.calls → s.scheduler.closed = true) : Effect s (s.step a) := by
  cases a with
  | turnTo uri =>
      rw [step]
      split
      · exact .refl s
      · exact .lost s.subperm_carriers le_rfl (.inl (List.cons_ne_nil _ _))
  | schedule now trigger => exact effect_schedule s now trigger s.calls
  | startNow => exact effect_startNow s
  | shutdown => exact .lost s.subperm_carriers le_rfl (.inl (List.cons_ne_nil _ _))
  | resume place now => exact effect_resume s place now closing
  | fire => exact effect_fire s
  | finish generation => exact effect_finish s generation

/-! ## The latest generation -/

/-- Generations are used once, and once all calls have returned the latest has a carrier, which is
for the active document. -/
structure Sound (s : Interleaving) : Prop where
  closing : Stage.closing ∈ s.calls → s.scheduler.closed = true
  bound : ∀ p ∈ s.carriers, p.2 ≤ s.scheduler.generation
  distinct : (s.carriers.map (·.2)).Nodup
  latest : ∀ uri, s.calls = [] → s.scheduler.closed = false → s.scheduler.active = some uri →
    (uri, s.scheduler.generation) ∈ s.carriers

theorem sound_initial : Sound {} :=
  ⟨nofun, nofun, .nil, nofun⟩

theorem closing_step (s : Interleaving) (a : Action)
    (closing : Stage.closing ∈ s.calls → s.scheduler.closed = true) :
    Stage.closing ∈ (s.step a).calls → (s.step a).scheduler.closed = true := by
  cases a with
  | turnTo uri =>
      rw [step]
      split
      · exact closing
      · intro midway
        obtain same | before := List.mem_cons.mp midway
        · cases same
        · exact closing before
  | schedule now trigger =>
      rw [step, closed_schedule]
      exact closing
  | startNow =>
      rw [step, System.begin, closed_startNow]
      exact closing
  | shutdown => exact fun _ => rfl
  | resume place now =>
      cases call : s.calls[place]? with
      | none =>
          simp only [step, call]
          exact closing
      | some stage =>
          cases stage with
          | pointed =>
              simp only [step, call]
              intro midway
              obtain before | same := List.mem_or_eq_of_mem_set midway
              · exact closing before
              · cases same
          | advanced =>
              simp only [step, call, closed_schedule]
              exact fun midway => closing (List.mem_of_mem_eraseIdx midway)
          | closing =>
              simp only [step, call]
              exact fun midway => closing (List.mem_of_mem_eraseIdx midway)
  | fire => exact closing
  | finish generation => exact closing

theorem distinct_of_subperm {carriers carriers' : List (Uri × Nat)}
    (fewer : carriers'.Subperm carriers) (distinct : (carriers.map (·.2)).Nodup) :
    (carriers'.map (·.2)).Nodup := by
  obtain ⟨some, perm, sublist⟩ := fewer
  exact (perm.map _).nodup_iff.mp ((sublist.map _).nodup distinct)

theorem Sound.step {s : Interleaving} (h : Sound s) (a : Action) : Sound (s.step a) := by
  have closing := closing_step s a h.closing
  cases effect_step s a h.closing with
  | moved active closed calls generation carriers =>
      refine ⟨closing, ?_, distinct_of_subperm carriers.subperm h.distinct, ?_⟩
      · intro p member
        rw [generation]
        exact h.bound p (carriers.subset member)
      · intro uri returned serving focus
        rw [generation]
        exact carriers.symm.subset
          (h.latest uri (calls ▸ returned) (closed ▸ serving) (active ▸ focus))
  | lost carriers later excused =>
      refine ⟨closing, ?_, distinct_of_subperm carriers h.distinct, ?_⟩
      · exact fun p member => (h.bound p (carriers.subset member)).trans later
      · intro uri returned serving focus
        rcases excused with midway | closed | idle
        · exact absurd returned midway
        · exact absurd (serving.symm.trans closed) nofun
        · exact absurd (focus.symm.trans idle) nofun
  | @created uri active later carriers =>
      have older : ∀ p ∈ s.passes ++ s.finished, p.2 < (s.step a).scheduler.generation :=
        fun p member => (h.bound p (s.subperm_carriers.subset member)).trans_lt later
      refine ⟨closing, ?_, ?_, ?_⟩
      · intro p member
        rcases List.mem_cons.mp (carriers.subset member) with rfl | old
        · exact le_rfl
        · exact (older p old).le
      · refine (carriers.map _).nodup_iff.mpr (List.nodup_cons.mpr ⟨?_, ?_⟩)
        · intro again
          obtain ⟨p, old, same⟩ := List.mem_map.mp again
          exact (older p old).ne same
        · exact distinct_of_subperm s.subperm_carriers h.distinct
      · intro other returned serving focus
        obtain rfl := Option.some.inj (active.symm.trans focus)
        exact carriers.symm.subset List.mem_cons_self

theorem Sound.run {s : Interleaving} (h : Sound s) (actions : List Action) :
    Sound (s.run actions) := by
  induction actions generalizing s with
  | nil => exact h
  | cons a actions ih => exact ih (h.step a)

theorem filter_eq_singleton {carriers : List (Uri × Nat)} {pass : Uri × Nat}
    (distinct : (carriers.map (·.2)).Nodup) (member : pass ∈ carriers) :
    carriers.filter (·.2 = pass.2) = [pass] := by
  induction carriers with
  | nil => cases member
  | cons first rest ih =>
      obtain ⟨new, distinct⟩ := List.nodup_cons.mp distinct
      rcases List.mem_cons.mp member with rfl | inside
      · rw [List.filter_cons_of_pos (by simp), List.filter_eq_nil_iff.mpr]
        intro other inside same
        exact new (List.mem_map.mpr ⟨other, inside, of_decide_eq_true same⟩)
      · rw [List.filter_cons_of_neg, ih distinct inside]
        intro same
        exact new (List.mem_map.mpr ⟨pass, inside, (of_decide_eq_true same).symm⟩)

/-- However calls overlap with each other, with timers and with passes: once all calls have
returned, the latest generation has exactly one pass that is not cancelled, and this pass is for the
active document, unless there is none or the scheduler is shut down. -/
theorem latest_is_for_active (history : List Action) (uri : Uri)
    (returned : (run {} history).calls = [])
    (serving : (run {} history).scheduler.closed = false)
    (active : (run {} history).scheduler.active = some uri) :
    (run {} history).carriers.filter (·.2 = (run {} history).scheduler.generation) =
      [(uri, (run {} history).scheduler.generation)] := by
  have sound := sound_initial.run history
  exact filter_eq_singleton sound.distinct (sound.latest uri returned serving active)

/-- Two turns overlap. The later one to be called takes its generation first, and its timer has
become a pass when the generation of the other puts this pass out of date. -/
def crossing : List Action :=
  [.turnTo (some ⟨"untitled", none, "a", none, none⟩),
    .turnTo (some ⟨"untitled", none, "b", none, none⟩), .schedule 1 .edit, .resume 0 2,
    .resume 0 3, .fire, .resume 0 300, .resume 0 301, .finish 3, .fire]

theorem latest_is_for_active_crossing :
    (run {} crossing).calls = [] ∧ (run {} crossing).scheduler.closed = false ∧
      (run {} crossing).carriers =
        [(⟨"untitled", none, "b", none, none⟩, 5), (⟨"untitled", none, "b", none, none⟩, 3)] ∧
      (run {} crossing).carriers.filter (·.2 = (run {} crossing).scheduler.generation) =
        [(⟨"untitled", none, "b", none, none⟩, 5)] :=
  ⟨rfl, rfl, rfl, latest_is_for_active crossing _ rfl rfl rfl⟩

end Interleaving

end FunctionMeter.Scheduler
