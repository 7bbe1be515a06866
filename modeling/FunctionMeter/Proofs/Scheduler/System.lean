import FunctionMeter.Proofs.Scheduler.Basic
import Mathlib

/-!
# A scheduler and its passes

Calls to a scheduler, timers that run out and measurements that end may follow each other in any
order. A system is a scheduler with the passes that it has begun and that have not ended, and `step`
lets one of these things happen. A measurement may fail, in which case its pass ends without asking
whether it is still the latest; a pass that asks and is the latest is approved and goes on to
publish.

`Effect` says once what a step can do to a system. Everything else follows from it: the invariant
`Sound`, and that an approved pass was created by a call after which nothing was called but
`cancel`.
-/

namespace FunctionMeter.Scheduler

/-- A scheduler with its passes under way, each a document and a generation. -/
structure System where
  scheduler : Scheduler := {}
  passes : List (Uri × Nat) := []

/-- What can happen to a system. -/
inductive Action where
  | turnTo (now : Nat) (uri : Option Uri)
  | schedule (now : Nat) (trigger : Trigger)
  | startNow
  | cancel
  | shutdown
  /-- The timer runs out. -/
  | fire
  /-- The measurement of the pass of a generation ends, well or with a failure. -/
  | finish (generation : Nat) (measured : Bool)

namespace Action

/-- Whether an action is a call that asks for a new pass or rules out the passes so far. -/
def isTrigger : Action → Bool
  | .turnTo .. | .schedule .. | .startNow | .shutdown => true
  | .cancel | .fire | .finish .. => false

def isFinish : Action → Bool
  | .finish .. => true
  | _ => false

theorem isTrigger_of_isFinish {a : Action} (finish : a.isFinish = true) : a.isTrigger = false := by
  cases a with
  | finish generation measured => rfl
  | _ => cases finish

/-- A call to a scheduler creates a pass: it takes a new generation, and it begins the pass at once
or arms the timer that will begin it. -/
def Creates (s : Scheduler) (pass : Uri × Nat) : Action → Prop
  | .turnTo now uri =>
    s.generation < pass.2 ∧ ∃ due, (s.turnTo now uri).timer = some ⟨pass.1, pass.2, due⟩
  | .schedule now trigger =>
    s.generation < pass.2 ∧ ∃ due, (s.schedule now trigger).timer = some ⟨pass.1, pass.2, due⟩
  | .startNow => s.startNow.1 = some pass
  | .cancel | .shutdown | .fire | .finish .. => False

end Action

namespace System

/-- Takes up what a call or a timer begins. -/
def begin (s : System) (outcome : Option (Uri × Nat) × Scheduler) : System :=
  ⟨outcome.2, s.passes ++ outcome.1.toList⟩

def step (s : System) : Action → System
  | .turnTo now uri => { s with scheduler := s.scheduler.turnTo now uri }
  | .schedule now trigger => { s with scheduler := s.scheduler.schedule now trigger }
  | .startNow => s.begin s.scheduler.startNow
  | .cancel => { s with scheduler := s.scheduler.cancel }
  | .shutdown => { s with scheduler := s.scheduler.shutdown }
  | .fire => s.begin s.scheduler.fire
  | .finish generation _ => { s with passes := s.passes.filter (·.2 ≠ generation) }

def run (s : System) (actions : List Action) : System := actions.foldl step s

theorem run_append_singleton (s : System) (actions : List Action) (a : Action) :
    s.run (actions ++ [a]) = (s.run actions).step a := by
  rw [run, List.foldl_append]
  rfl

/-- The pass that an action approves: its measurement has ended well, and its generation is still
the latest. -/
def approved? (s : System) : Action → Option (Uri × Nat)
  | .finish generation true =>
    if s.scheduler.isLatest generation then s.passes.find? (·.2 = generation) else none
  | _ => none

/-- The passes that are approved one after another. -/
def approvals (s : System) : List Action → List (Uri × Nat)
  | [] => []
  | a :: actions => (s.approved? a).toList ++ (s.step a).approvals actions

theorem approved?_eq_some {s : System} {a : Action} {pass : Uri × Nat}
    (approved : s.approved? a = some pass) :
    a = .finish pass.2 true ∧ pass ∈ s.passes ∧ s.scheduler.generation = pass.2 := by
  cases a with
  | finish generation measured =>
      cases measured with
      | false => cases approved
      | true =>
          rw [approved?] at approved
          split at approved
          · rename_i latest
            have same : pass.2 = generation := by simpa using List.find?_some approved
            rw [same]
            exact ⟨rfl, List.mem_of_find?_eq_some approved, of_decide_eq_true latest⟩
          · cases approved
  | _ => cases approved

/-! ## What a step can do -/

/-- The effects that an action can have. Either the generation stays, because the action is no
trigger or because it meets a scheduler without an active document, and at most the timer and some
passes go, the timer unless a measurement ends; or the timer becomes a pass; or there is a later
generation. A later generation belongs to a timer or a pass that the action creates for the active
document, unless there is no active document left. -/
inductive Effect (s : System) (a : Action) : System → Prop
  | rest {timer : Option Timer} {passes : List (Uri × Nat)}
      (idle : a.isTrigger → s.scheduler.active = none ∨ s.scheduler.closed = true)
      (kept : timer = s.scheduler.timer ∧ (a.isFinish ∨ s.scheduler.closed = true) ∨ timer = none)
      (fewer : passes.Sublist s.passes) :
      Effect s a ⟨{ s.scheduler with timer }, passes⟩
  | fired {timer : Timer} (armed : s.scheduler.timer = some timer) (quiet : a.isTrigger = false) :
      Effect s a
        ⟨{ s.scheduler with timer := none }, s.passes ++ [(timer.uri, timer.generation)]⟩
  | armed {uri : Uri} {generation due : Nat} (later : s.scheduler.generation < generation)
      (serving : s.scheduler.closed = false) (created : a.Creates s.scheduler (uri, generation)) :
      Effect s a ⟨⟨some uri, some ⟨uri, generation, due⟩, false, generation⟩, s.passes⟩
  | begun {uri : Uri} {generation : Nat} (later : s.scheduler.generation < generation)
      (serving : s.scheduler.closed = false) (created : a.Creates s.scheduler (uri, generation)) :
      Effect s a ⟨⟨some uri, none, false, generation⟩, s.passes ++ [(uri, generation)]⟩
  | emptied {closed : Bool} {generation : Nat} (later : s.scheduler.generation < generation)
      (stays : s.scheduler.closed = true → closed = true) :
      Effect s a ⟨⟨none, none, closed, generation⟩, s.passes⟩

theorem effect_turnTo (s : System) (now : Nat) (uri : Option Uri) :
    Effect s (.turnTo now uri) (s.step (.turnTo now uri)) := by
  cases closed : s.scheduler.closed with
  | true =>
      rw [step, turnTo_of_closed now uri closed]
      exact .rest (fun _ => .inr closed) (.inl ⟨rfl, .inr closed⟩) (.refl _)
  | false =>
      cases uri with
      | none =>
          rw [step, turnTo_none now closed]
          exact .emptied (Nat.lt_succ_self _) fun stopped => absurd (closed.symm.trans stopped) nofun
      | some uri =>
          have created : (Action.turnTo now (some uri)).Creates s.scheduler
              (uri, s.scheduler.generation + 2) :=
            ⟨by simp only; omega, _, by rw [turnTo_some now uri closed]⟩
          rw [step, turnTo_some now uri closed]
          exact .armed (by omega) closed created

theorem effect_schedule (s : System) (now : Nat) (trigger : Trigger) :
    Effect s (.schedule now trigger) (s.step (.schedule now trigger)) := by
  cases closed : s.scheduler.closed with
  | true =>
      rw [step, schedule_of_closed now trigger closed]
      exact .rest (fun _ => .inr closed) (.inl ⟨rfl, .inr closed⟩) (.refl _)
  | false =>
      cases active : s.scheduler.active with
      | none =>
          rw [step, schedule_of_none now trigger closed active]
          exact .rest (fun _ => .inl active) (.inr rfl) (.refl _)
      | some uri =>
          have created : (Action.schedule now trigger).Creates s.scheduler
              (uri, s.scheduler.generation + 1) :=
            ⟨Nat.lt_succ_self _, _, by rw [schedule_of_some now trigger closed active]⟩
          rw [step, schedule_of_some now trigger closed active]
          exact .armed (Nat.lt_succ_self _) closed created

theorem effect_startNow (s : System) : Effect s .startNow (s.step .startNow) := by
  cases closed : s.scheduler.closed with
  | true =>
      rw [step, startNow_of_closed closed, begin, Option.toList_none, List.append_nil]
      exact .rest (fun _ => .inr closed) (.inr rfl) (.refl _)
  | false =>
      cases active : s.scheduler.active with
      | none =>
          rw [step, startNow_of_none active, begin, Option.toList_none, List.append_nil]
          exact .rest (fun _ => .inl active) (.inr rfl) (.refl _)
      | some uri =>
          have created : Action.startNow.Creates s.scheduler
              (uri, s.scheduler.generation + 1) := by
            rw [Action.Creates, startNow_of_some closed active]
          rw [step, startNow_of_some closed active, begin, Option.toList_some]
          exact .begun (Nat.lt_succ_self _) closed created

theorem effect_fire (s : System) : Effect s .fire (s.step .fire) := by
  cases armed : s.scheduler.timer with
  | none =>
      rw [step, fire_of_none armed, begin, Option.toList_none, List.append_nil]
      exact .rest nofun (.inr rfl) (.refl _)
  | some timer =>
      rw [step, fire_of_some armed, begin, Option.toList_some]
      exact .fired armed rfl

/-- Every step has one of the effects. -/
theorem effect_step (s : System) (a : Action) : Effect s a (s.step a) := by
  cases a with
  | turnTo now uri => exact effect_turnTo s now uri
  | schedule now trigger => exact effect_schedule s now trigger
  | startNow => exact effect_startNow s
  | cancel => exact .rest nofun (.inr rfl) (.refl _)
  | shutdown => exact .emptied (Nat.lt_succ_self _) fun _ => rfl
  | fire => exact effect_fire s
  | finish generation measured => exact .rest nofun (.inl ⟨rfl, .inl rfl⟩) List.filter_sublist

/-! ## The latest generation -/

/-- The latest generation belongs to the active document: the armed timer has it, and a pass that
has it measures that document. No generation is used twice. -/
structure Sound (s : System) : Prop where
  closed : s.scheduler.closed = true → s.scheduler.active = none
  timer : ∀ t, s.scheduler.timer = some t →
    t.generation = s.scheduler.generation ∧ s.scheduler.active = some t.uri
  bound : ∀ p ∈ s.passes, p.2 ≤ s.scheduler.generation
  latest : ∀ p ∈ s.passes, p.2 = s.scheduler.generation → s.scheduler.active = some p.1
  fresh : ∀ t, s.scheduler.timer = some t → ∀ p ∈ s.passes, p.2 ≠ t.generation
  distinct : (s.passes.map (·.2)).Nodup

theorem sound_initial : Sound {} :=
  ⟨nofun, nofun, nofun, nofun, nofun, .nil⟩

/-- A pass of a new generation can be added to passes of older ones. -/
theorem nodup_append_pass {passes : List (Uri × Nat)} {pass : Uri × Nat}
    (distinct : (passes.map (·.2)).Nodup) (new : ∀ p ∈ passes, p.2 ≠ pass.2) :
    ((passes ++ [pass]).map (·.2)).Nodup := by
  rw [List.map_append, List.nodup_append]
  refine ⟨distinct, List.nodup_singleton _, ?_⟩
  rintro g member g' last rfl
  obtain ⟨p, inside, rfl⟩ := List.mem_map.mp member
  exact new p inside (List.mem_singleton.mp last)

theorem Sound.effect {s s' : System} {a : Action} (h : Sound s) (effect : Effect s a s') :
    Sound s' := by
  cases effect with
  | rest idle kept fewer =>
      refine ⟨h.closed, ?_, ?_, ?_, ?_, (fewer.map _).nodup h.distinct⟩
      · rintro t rfl
        exact h.timer t (kept.resolve_right nofun).1.symm
      · exact fun p member => h.bound p (fewer.subset member)
      · exact fun p member => h.latest p (fewer.subset member)
      · rintro t rfl p member
        exact h.fresh t (kept.resolve_right nofun).1.symm p (fewer.subset member)
  | @fired t armed quiet =>
      obtain ⟨latest, active⟩ := h.timer t armed
      refine ⟨h.closed, nofun, ?_, ?_, nofun, nodup_append_pass h.distinct (h.fresh t armed)⟩
      · intro p member
        rcases List.mem_append.mp member with old | new
        · exact h.bound p old
        · rw [List.mem_singleton.mp new]
          exact latest.le
      · intro p member
        rcases List.mem_append.mp member with old | new
        · exact h.latest p old
        · rw [List.mem_singleton.mp new]
          exact fun _ => active
  | armed later serving created =>
      have older : ∀ p ∈ s.passes, p.2 < _ := fun p member => (h.bound p member).trans_lt later
      refine ⟨nofun, ?_, ?_, ?_, ?_, h.distinct⟩
      · intro t same
        obtain rfl := Option.some.inj same
        exact ⟨rfl, rfl⟩
      · exact fun p member => (older p member).le
      · exact fun p member same => absurd same (older p member).ne
      · intro t same p member
        obtain rfl := Option.some.inj same
        exact (older p member).ne
  | begun later serving created =>
      have older : ∀ p ∈ s.passes, p.2 < _ := fun p member => (h.bound p member).trans_lt later
      refine ⟨nofun, nofun, ?_, ?_, nofun,
        nodup_append_pass h.distinct fun p member => (older p member).ne⟩
      · intro p member
        rcases List.mem_append.mp member with old | new
        · exact (older p old).le
        · rw [List.mem_singleton.mp new]
      · intro p member same
        rcases List.mem_append.mp member with old | new
        · exact absurd same (older p old).ne
        · rw [List.mem_singleton.mp new]
  | emptied later stays =>
      have older : ∀ p ∈ s.passes, p.2 < _ := fun p member => (h.bound p member).trans_lt later
      refine ⟨fun _ => rfl, nofun, ?_, ?_, nofun, h.distinct⟩
      · exact fun p member => (older p member).le
      · exact fun p member same => absurd same (older p member).ne

theorem Sound.step {s : System} (h : Sound s) (a : Action) : Sound (s.step a) :=
  h.effect (effect_step s a)

theorem Sound.run {s : System} (h : Sound s) (actions : List Action) : Sound (s.run actions) := by
  induction actions generalizing s with
  | nil => exact h
  | cons a actions ih => exact ih (h.step a)

/-! ## Any number of effects -/

/-- One system comes from another by effects of actions. -/
def Evolves : System → System → Prop := Relation.ReflTransGen fun s s' => ∃ a, Effect s a s'

namespace Evolves

variable {s s' : System}

theorem of_step (s : System) (a : Action) : Evolves s (s.step a) := .single ⟨a, effect_step s a⟩

/-- Passes may end in any number. -/
theorem of_sublist {passes : List (Uri × Nat)} (fewer : passes.Sublist s.passes) :
    Evolves s ⟨s.scheduler, passes⟩ :=
  .single ⟨.finish 0 true, .rest nofun (.inl ⟨rfl, .inl rfl⟩) fewer⟩

theorem sound (h : Evolves s s') (sound : Sound s) : Sound s' := by
  induction h with
  | refl => exact sound
  | tail _ step ih =>
      obtain ⟨a, effect⟩ := step
      exact ih.effect effect

theorem generation_le (h : Evolves s s') : s.scheduler.generation ≤ s'.scheduler.generation := by
  induction h with
  | refl => exact le_rfl
  | tail _ step ih =>
      obtain ⟨a, effect⟩ := step
      refine ih.trans ?_
      cases effect with
      | rest => exact le_rfl
      | fired => exact le_rfl
      | armed later => exact later.le
      | begun later => exact later.le
      | emptied later => exact later.le

end Evolves

/-! ## Where passes come from -/

/-- A pass goes back to a call in a history, and only quiet actions came after this call. -/
def Origin (quiet : Action → Bool) (history : List Action) (pass : Uri × Nat) : Prop :=
  ∃ before call since, history = before ++ call :: since ∧
    call.Creates (run {} before).scheduler pass ∧ ∀ a ∈ since, quiet a = true

theorem Origin.later {quiet : Action → Bool} {history : List Action} {pass : Uri × Nat}
    {a : Action} (origin : Origin quiet history pass) (silent : quiet a = true) :
    Origin quiet (history ++ [a]) pass := by
  obtain ⟨before, call, since, rfl, created, silence⟩ := origin
  refine ⟨before, call, since ++ [a], by simp, created, ?_⟩
  intro b member
  rcases List.mem_append.mp member with old | new
  · exact silence b old
  · rw [List.mem_singleton.mp new]
    exact silent

theorem Origin.mono {quiet quiet' : Action → Bool} {history : List Action} {pass : Uri × Nat}
    (origin : Origin quiet history pass) (weaker : ∀ a, quiet a = true → quiet' a = true) :
    Origin quiet' history pass := by
  obtain ⟨before, call, since, split, created, silence⟩ := origin
  exact ⟨before, call, since, split, created, fun a member => weaker a (silence a member)⟩

theorem origin_new {quiet : Action → Bool} {history : List Action} {pass : Uri × Nat}
    {a : Action} (created : a.Creates (run {} history).scheduler pass) :
    Origin quiet (history ++ [a]) pass :=
  ⟨history, a, [], rfl, created, nofun⟩

/-- The armed timer was created by the last call of all and has not run out since. The passes of
the latest generation were created by the last trigger. -/
structure Traced (history : List Action) (s : System) : Prop where
  timer : ∀ t, s.scheduler.timer = some t → Origin Action.isFinish history (t.uri, t.generation)
  passes : ∀ p ∈ s.passes, p.2 = s.scheduler.generation → Origin (!·.isTrigger) history p

theorem Traced.effect {history : List Action} {a : Action} {s' : System}
    (sound : Sound (run {} history)) (h : Traced history (run {} history))
    (effect : Effect (run {} history) a s') : Traced (history ++ [a]) s' := by
  cases effect with
  | rest idle kept fewer =>
      -- A closed scheduler and a trigger without effect leave no active document, hence neither a
      -- timer nor a pass of the latest generation.
      refine ⟨?_, ?_⟩
      · rintro t rfl
        obtain ⟨armed, finish | closed⟩ := kept.resolve_right nofun
        · exact (h.timer t armed.symm).later finish
        · have active := (sound.timer t armed.symm).2
          rw [sound.closed closed] at active
          cases active
      · intro p member same
        have inside := fewer.subset member
        have active := sound.latest p inside same
        refine (h.passes p inside same).later ?_
        rw [Bool.not_eq_true']
        by_contra trigger
        rcases idle (Bool.eq_true_of_not_eq_false trigger) with none | closed
        · rw [none] at active
          cases active
        · rw [sound.closed closed] at active
          cases active
  | @fired t armed quiet =>
      have silent : (!a.isTrigger) = true := by rw [quiet, Bool.not_false]
      refine ⟨nofun, ?_⟩
      intro p member same
      rcases List.mem_append.mp member with old | new
      · exact (h.passes p old same).later silent
      · rw [List.mem_singleton.mp new]
        refine ((h.timer t armed).mono ?_).later silent
        intro b finish
        rw [Action.isTrigger_of_isFinish finish, Bool.not_false]
  | armed later serving created =>
      refine ⟨?_, ?_⟩
      · intro t same
        obtain rfl := Option.some.inj same
        exact origin_new created
      · intro p member same
        exact absurd same ((sound.bound p member).trans_lt later).ne
  | begun later serving created =>
      refine ⟨nofun, ?_⟩
      intro p member same
      rcases List.mem_append.mp member with old | new
      · exact absurd same ((sound.bound p old).trans_lt later).ne
      · rw [List.mem_singleton.mp new]
        exact origin_new created
  | emptied later stays =>
      refine ⟨nofun, ?_⟩
      intro p member same
      exact absurd same ((sound.bound p member).trans_lt later).ne

theorem traced_run (history : List Action) : Traced history (run {} history) := by
  induction history using List.reverseRecOn with
  | nil => exact ⟨nofun, nofun⟩
  | append_singleton history a ih =>
      rw [run_append_singleton]
      exact ih.effect (sound_initial.run history) (effect_step _ a)

/-! ## Approvals -/

/-- A generation is over: no timer and no pass has it, and none will. -/
structure Spent (s : System) (generation : Nat) : Prop where
  bound : generation ≤ s.scheduler.generation
  timer : ∀ t, s.scheduler.timer = some t → t.generation ≠ generation
  passes : ∀ p ∈ s.passes, p.2 ≠ generation

theorem Spent.effect {s s' : System} {a : Action} {generation : Nat} (h : Spent s generation)
    (effect : Effect s a s') : Spent s' generation := by
  cases effect with
  | rest idle kept fewer =>
      refine ⟨h.bound, ?_, fun p member => h.passes p (fewer.subset member)⟩
      rintro t rfl
      exact h.timer t (kept.resolve_right nofun).1.symm
  | @fired t armed quiet =>
      refine ⟨h.bound, nofun, ?_⟩
      intro p member
      rcases List.mem_append.mp member with old | new
      · exact h.passes p old
      · rw [List.mem_singleton.mp new]
        exact h.timer t armed
  | armed later serving created =>
      have beyond := h.bound.trans_lt later
      refine ⟨beyond.le, ?_, h.passes⟩
      intro t same
      obtain rfl := Option.some.inj same
      exact beyond.ne'
  | begun later serving created =>
      have beyond := h.bound.trans_lt later
      refine ⟨beyond.le, nofun, ?_⟩
      intro p member
      rcases List.mem_append.mp member with old | new
      · exact h.passes p old
      · rw [List.mem_singleton.mp new]
        exact beyond.ne'
  | emptied later stays => exact ⟨(h.bound.trans_lt later).le, nofun, h.passes⟩

theorem Evolves.spent {s s' : System} {generation : Nat} (h : Evolves s s')
    (spent : Spent s generation) : Spent s' generation := by
  induction h with
  | refl => exact spent
  | tail _ step ih =>
      obtain ⟨a, effect⟩ := step
      exact ih.effect effect

/-- With its approval a pass ends, and its generation is over. -/
theorem spent_of_approved {s : System} {a : Action} {pass : Uri × Nat} (sound : Sound s)
    (approved : s.approved? a = some pass) : Spent (s.step a) pass.2 := by
  obtain ⟨rfl, member, latest⟩ := approved?_eq_some approved
  refine ⟨latest.ge, ?_, ?_⟩
  · exact fun t armed => (sound.fresh t armed pass member).symm
  · intro p inside
    exact of_decide_eq_true (List.mem_filter.mp inside).2

theorem approvals_append_singleton (s : System) (actions : List Action) (a : Action) :
    s.approvals (actions ++ [a]) = s.approvals actions ++ ((s.run actions).approved? a).toList := by
  induction actions generalizing s with
  | nil => rw [List.nil_append, approvals, approvals, approvals, List.append_nil, List.nil_append,
      run, List.foldl_nil]
  | cons b actions ih =>
      rw [List.cons_append, approvals, ih, approvals, List.append_assoc]
      rfl

theorem spent_of_mem_approvals (history : List Action) :
    ∀ p ∈ approvals {} history, Spent (run {} history) p.2 := by
  induction history using List.reverseRecOn with
  | nil => nofun
  | append_singleton history a ih =>
      rw [approvals_append_singleton, run_append_singleton]
      intro p member
      rcases List.mem_append.mp member with old | new
      · exact (ih p old).effect (effect_step _ a)
      · exact spent_of_approved (sound_initial.run history) (Option.mem_toList.mp new)

/-- Approvals come in the order of generations, and each generation has at most one. -/
theorem approvals_increasing (history : List Action) :
    ((approvals {} history).map (·.2)).Pairwise (· < ·) := by
  induction history using List.reverseRecOn with
  | nil => exact .nil
  | append_singleton history a ih =>
      rw [approvals_append_singleton, List.map_append, List.pairwise_append]
      refine ⟨ih, ?_, ?_⟩
      · cases (run {} history).approved? a <;> simp
      · intro g earlier g' last
        obtain ⟨p, old, rfl⟩ := List.mem_map.mp earlier
        obtain ⟨q, new, rfl⟩ := List.mem_map.mp last
        obtain ⟨-, member, latest⟩ := approved?_eq_some (Option.mem_toList.mp new)
        have spent := spent_of_mem_approvals history p old
        exact lt_of_le_of_ne (latest ▸ spent.bound) (spent.passes q member).symm

/-- A scheduler that has been shut down stays so. -/
theorem Effect.closed {s s' : System} {a : Action} (effect : Effect s a s')
    (closed : s.scheduler.closed = true) : s'.scheduler.closed = true := by
  cases effect with
  | rest idle kept fewer => exact closed
  | fired armed quiet => exact closed
  | armed later serving created => exact absurd (serving.symm.trans closed) nofun
  | begun later serving created => exact absurd (serving.symm.trans closed) nofun
  | emptied later stays => exact stays closed

theorem closed_run {history : List Action} (stopped : Action.shutdown ∈ history) :
    (run {} history).scheduler.closed = true := by
  induction history using List.reverseRecOn with
  | nil => cases stopped
  | append_singleton history a ih =>
      rw [run_append_singleton]
      rcases List.mem_append.mp stopped with before | last
      · exact (effect_step _ a).closed (ih before)
      · rw [← List.mem_singleton.mp last]
        rfl

/-- A pass is approved only while it is current: its document is the active one, the scheduler has
not been shut down, and since the call that created the pass nothing was called but `cancel`. -/
theorem current_of_approved {history : List Action} {a : Action} {pass : Uri × Nat}
    (approved : (run {} history).approved? a = some pass) :
    (run {} history).scheduler.active = some pass.1 ∧
      (run {} history).scheduler.closed = false ∧ Action.shutdown ∉ history ∧
      Origin (!·.isTrigger) history pass := by
  have sound := sound_initial.run history
  obtain ⟨-, member, latest⟩ := approved?_eq_some approved
  have active := sound.latest pass member latest.symm
  have serving : (run {} history).scheduler.closed ≠ true := by
    intro closed
    rw [sound.closed closed] at active
    cases active
  exact ⟨active, Bool.eq_false_iff.mpr serving, fun stopped => serving (closed_run stopped),
    (traced_run history).passes pass member latest.symm⟩

/-- Whatever is called and whenever timers run out and measurements end: approved passes are
current, approvals come in strictly increasing order of generations, and an armed timer has the
latest generation, is for the active document and was created by the last call. There is only one
timer, since `Scheduler.timer` has no room for two. -/
theorem approvals_current_and_increasing (history : List Action) :
    (∀ a pass, (run {} history).approved? a = some pass →
      (run {} history).scheduler.active = some pass.1 ∧
        (run {} history).scheduler.closed = false ∧ Action.shutdown ∉ history ∧
        Origin (!·.isTrigger) history pass) ∧
      ((approvals {} history).map (·.2)).Pairwise (· < ·) ∧
      ∀ t, (run {} history).scheduler.timer = some t →
        t.generation = (run {} history).scheduler.generation ∧
          (run {} history).scheduler.active = some t.uri ∧
          Origin Action.isFinish history (t.uri, t.generation) := by
  refine ⟨fun a pass approved => current_of_approved approved, approvals_increasing history, ?_⟩
  intro t armed
  obtain ⟨latest, active⟩ := (sound_initial.run history).timer t armed
  exact ⟨latest, active, (traced_run history).timer t armed⟩

/-- The focus moves from one document to another, each gets a pass, and then `cancel` is called. -/
def detour : List Action :=
  [.turnTo 0 (some ⟨"untitled", none, "a", none, none⟩), .fire,
    .turnTo 300 (some ⟨"untitled", none, "b", none, none⟩), .schedule 310 .edit, .fire, .cancel]

theorem approvals_current_and_increasing_detour :
    (run {} detour).approved? (.finish 2 true) = none ∧
      (run {} detour).approved? (.finish 5 true) =
        some (⟨"untitled", none, "b", none, none⟩, 5) ∧
      Action.shutdown ∉ detour ∧
      Origin (!·.isTrigger) detour (⟨"untitled", none, "b", none, none⟩, 5) := by
  have approved : (run {} detour).approved? (.finish 5 true) =
      some (⟨"untitled", none, "b", none, none⟩, 5) := rfl
  have current := (approvals_current_and_increasing detour).1 _ _ approved
  exact ⟨rfl, approved, current.2.2⟩

end System

end FunctionMeter.Scheduler
