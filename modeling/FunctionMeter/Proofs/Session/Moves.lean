import FunctionMeter.Proofs.Session.Run
import Mathlib

/-!
# Sessions in small moves

Between the messages of an editor, the timer and the passes of a session move on by themselves, in
any order and any number of steps. A pass takes its snapshot, measures, is checked against the
latest generation, stores its labels and tells the editor what to draw. `Move` takes the last three
of these together and `Step` takes them one by one.

`Effect` says once what can happen to a session besides publication, and `Stage` says what a pass
does to publish, so that invariants need not look into handlers and passes. The first of them is
`Anchored`: the latest generation belongs to the active document, and the active document is open.
-/

namespace FunctionMeter.Session

open Scheduler.System (Sound Evolves)

variable {s s' : Session} {p : Pass} {g : Nat} {arrival : Option Uri}

/-! ## Moves -/

/-- The user asks for a pass, which is still to take its snapshot. -/
def ask (s : Session) (now request : Nat) : Session :=
  let (pass, scheduler) := s.scheduler.startNow
  let s := { s with scheduler }
  match pass with
  | some (uri, generation) => s.begin { uri, generation, began := now, request := some request }
  | none => s.answer request .noDocument

theorem ask_of_some {pass : Uri × Nat} {scheduler : Scheduler} (now request : Nat)
    (started : s.scheduler.startNow = (some pass, scheduler)) :
    s.ask now request = { s with scheduler }.begin
      { uri := pass.1, generation := pass.2, began := now, request := some request } := by
  simp only [ask, started]

theorem ask_of_none {scheduler : Scheduler} (now request : Nat)
    (started : s.scheduler.startNow = (none, scheduler)) :
    s.ask now request = { s with scheduler }.answer request .noDocument := by
  simp only [ask, started]

/-- A request for a pass is its first half with the snapshot directly behind it. -/
theorem recalculate_eq (s : Session) (now request : Nat) :
    s.recalculate now request =
      match s.scheduler.startNow.1 with
      | some pass => (s.ask now request).takeSnapshot pass.2
      | none => s.ask now request := by
  simp only [recalculate, ask]
  cases s.scheduler.startNow.1 with
  | none => rfl
  | some pass => rfl

/-- What can happen in a session whose passes are checked and publish in one step. -/
inductive Move where
  | event (event : Event)
  /-- The user asks for a pass, and its snapshot is taken later. -/
  | asked (now request : Nat)
  /-- The editor calls off a request. -/
  | calledOff (request : Nat)
  /-- The provider has done its work for the pass of a generation. -/
  | measured (generation : Nat)
  /-- The pass of a generation, having measured, publishes if it is still the latest. -/
  | published (generation : Nat)

def move (s : Session) : Move → Session
  | .event event => s.step event
  | .asked now request => s.ask now request
  | .calledOff request => s.callOff request
  | .measured generation => s.finishMeasuring generation
  | .published generation => s.publish generation

def play (s : Session) (moves : List Move) : Session := moves.foldl move s

/-- What can happen in a session whose passes may be interrupted everywhere. -/
inductive Step where
  | move (move : Move)
  /-- The pass of a generation is checked and goes on if it is still the latest. -/
  | checked (generation : Nat)
  | stored (generation : Nat)
  | announced (generation : Nat)

def advance (s : Session) : Step → Session
  | .move move => s.move move
  | .checked generation => s.checkLatest generation
  | .stored generation => s.storeLabels generation
  | .announced generation => s.announce generation

def follow (s : Session) (steps : List Step) : Session := steps.foldl advance s

/-- The document that a move opens. -/
def Move.arrival? : Move → Option Uri
  | .event (.opened _ document) => some document.uri
  | _ => none

def Step.arrival? : Step → Option Uri
  | .move m => m.arrival?
  | _ => none

/-- The generation whose pass a move lets publish. -/
def Move.publisher? : Move → Option Nat
  | .event (.finished generation) => some generation
  | .published generation => some generation
  | _ => none

theorem Move.eq_of_publisher? {move : Move} (publishes : move.publisher? = some g) :
    move = .event (.finished g) ∨ move = .published g := by
  cases move with
  | event event =>
      cases event with
      | finished generation => exact .inl (congrArg _ (congrArg _ (Option.some.inj publishes)))
      | _ => cases publishes
  | published generation => exact .inr (congrArg _ (Option.some.inj publishes))
  | _ => cases publishes

/-! ## What can happen to a session -/

/-- What a message of the editor does to a session: passes go on, nothing is sent, and if no new
generation begins the active document stays as it is. No document is there afterwards that was not
there before, but for the one that the message opens. -/
structure Handled (arrival : Option Uri) (s s' : Session) : Prop where
  passes : s'.passes = s.passes
  sent : s'.sent = s.sent
  provider : s'.provider = s.provider
  evolves : Evolves s.system s'.system
  kept : s'.scheduler.generation = s.scheduler.generation →
    ∀ u, s.scheduler.active = some u → s'.store.get? u = s.store.get? u
  opened : ∀ u, s'.scheduler.active = some u → ∃ d, s'.store.get? u = some d
  absent : ∀ u, arrival ≠ some u → s.store.get? u = none → s'.store.get? u = none
  unlabelled : ∀ u, s.labels? u = none → s'.labels? u = none

/-- What can happen to a session besides publication. A message is handled, or a pass begins, takes
its snapshot or has measured; or something ends without a word about decorations. -/
inductive Effect (arrival : Option Uri) (s : Session) : Session → Prop
  | handled {s' : Session} (handled : Handled arrival s s') : Effect arrival s s'
  | begun {scheduler : Scheduler} {p : Pass}
      (evolves : Evolves s.system ({ s with scheduler }.begin p).system)
      (active : scheduler.active = s.scheduler.active) (begun : p.progress = .begun) :
      Effect arrival s ({ s with scheduler }.begin p)
  | snapped {p : Pass} {d : Document} (member : p ∈ s.passes) (begun : p.progress = .begun)
      (stored : s.store.get? p.uri = some d) :
      Effect arrival s (s.setProgress p.generation (.measuring d))
  | measured {p : Pass} {d : Document} (member : p ∈ s.passes) (busy : p.progress = .measuring d) :
      Effect arrival s (s.setProgress p.generation (.measured d.version (s.provider.measure d)))
  | ended {scheduler : Scheduler} {passes : List Pass} {answers : List Outgoing}
      (quiet : scheduler = s.scheduler ∨ scheduler = s.scheduler.cancel)
      (fewer : passes.Sublist s.passes) (plain : Outgoing.Plain answers) :
      Effect arrival s { s with scheduler, passes, sent := s.sent ++ answers }

/-- What a pass does to publish. -/
inductive Stage (s : Session) : Session → Prop
  | approved {p : Pass} {version : Int32} {metrics : List Metric} (member : p ∈ s.passes)
      (measured : p.progress = .measured version metrics)
      (latest : p.generation = s.scheduler.generation) :
      Stage s (s.setProgress p.generation (.approved version metrics))
  | labelled {p : Pass} {version : Int32} {metrics : List Metric}
      {labels : List (Uri × List Label)} (member : p ∈ s.passes)
      (approved : p.progress = .approved version metrics)
      (elsewhere : ∀ u, u ≠ p.uri → labels.lookup u = s.labels? u) :
      Stage s ({ s with labels }.setProgress p.generation
        (.labelled version metrics (Decorations.ofMetrics s.config metrics)))
  | announced {p : Pass} {version : Int32} {metrics : List Metric} {decorations : Decorations}
      {answers : List Outgoing} (member : p ∈ s.passes)
      (labelled : p.progress = .labelled version metrics decorations)
      (plain : Outgoing.Plain answers) :
      Stage s { s.erasePass p.generation with
        sent := s.sent ++ .decorations ⟨p.uri, version, decorations⟩ :: answers }

/-- Any number of effects. -/
def Effects (arrival : Option Uri) : Session → Session → Prop :=
  Relation.ReflTransGen (Effect arrival)

/-- Any number of effects and stages of publication. -/
def Course (arrival : Option Uri) : Session → Session → Prop :=
  Relation.ReflTransGen fun s s' => Effect arrival s s' ∨ Stage s s'

theorem Effects.course (effects : Effects arrival s s') : Course arrival s s' :=
  Relation.ReflTransGen.mono (fun _ _ effect => .inl effect) s s' effects

theorem Effect.evolves (effect : Effect arrival s s') : Evolves s.system s'.system := by
  cases effect with
  | handled handled => exact handled.evolves
  | begun evolves => exact evolves
  | snapped member =>
      rw [system_setProgress]
      exact .refl
  | measured member =>
      rw [system_setProgress]
      exact .refl
  | ended quiet fewer =>
      rcases quiet with rfl | rfl
      · exact .of_sublist (fewer.map _)
      · exact (Evolves.of_step s.system .cancel).trans (Evolves.of_sublist (fewer.map _))

theorem Stage.evolves (stage : Stage s s') : Evolves s.system s'.system := by
  cases stage with
  | approved member =>
      rw [system_setProgress]
      exact .refl
  | labelled member =>
      rw [system_setProgress]
      exact .refl
  | @announced p =>
      have ended := system_erasePass s p.generation true
      exact ended ▸ .of_step s.system (.finish p.generation true)

theorem Course.evolves (course : Course arrival s s') : Evolves s.system s'.system := by
  induction course with
  | refl => exact .refl
  | tail _ step ih =>
      rcases step with effect | stage
      · exact ih.trans effect.evolves
      · exact ih.trans stage.evolves

theorem Course.generation_le (course : Course arrival s s') :
    s.scheduler.generation ≤ s'.scheduler.generation :=
  course.evolves.generation_le

/-- Only publication tells the editor what to draw. -/
theorem Effect.notices (effect : Effect arrival s s') (uri : Uri) :
    s'.notices uri = s.notices uri := by
  cases effect with
  | handled handled => rw [Session.notices, handled.sent, Session.notices]
  | begun evolves => rfl
  | snapped member => rfl
  | measured member => rfl
  | ended quiet fewer plain => exact notices_append_plain plain rfl uri

theorem Effects.notices (effects : Effects arrival s s') (uri : Uri) :
    s'.notices uri = s.notices uri := by
  induction effects with
  | refl => rfl
  | tail _ effect ih => exact (effect.notices uri).trans ih

/-- The latest generation belongs to the active document, and the active document is open. -/
structure Anchored (s : Session) : Prop where
  sound : Sound s.system
  opened : ∀ u, s.scheduler.active = some u → ∃ d, s.store.get? u = some d

theorem anchored_initial (provider : Provider) (config : Config) (refreshes : Bool) :
    Anchored (initial provider config refreshes) :=
  ⟨Scheduler.System.sound_initial, nofun⟩

namespace Anchored

theorem effect (h : Anchored s) (effect : Effect arrival s s') : Anchored s' := by
  refine ⟨effect.evolves.sound h.sound, ?_⟩
  cases effect with
  | handled handled => exact handled.opened
  | begun evolves active => exact active ▸ h.opened
  | snapped member => exact h.opened
  | measured member => exact h.opened
  | ended quiet =>
      rcases quiet with rfl | rfl
      · exact h.opened
      · exact h.opened

theorem stage (h : Anchored s) (stage : Stage s s') : Anchored s' := by
  refine ⟨stage.evolves.sound h.sound, ?_⟩
  cases stage with
  | approved member => exact h.opened
  | labelled member => exact h.opened
  | announced member => exact h.opened

theorem course (h : Anchored s) (course : Course arrival s s') : Anchored s' := by
  induction course with
  | refl => exact h
  | tail _ next ih =>
      rcases next with effect | stage
      · exact ih.effect effect
      · exact ih.stage stage

theorem active_of_latest (h : Anchored s) (member : p ∈ s.passes)
    (latest : p.generation = s.scheduler.generation) : s.scheduler.active = some p.uri :=
  h.sound.latest _ (mem_system member) latest

/-- A closed session has no active document. -/
theorem serving {uri : Uri} (h : Anchored s) (active : s.scheduler.active = some uri) :
    s.scheduler.closed = false := by
  cases closed : s.scheduler.closed with
  | false => rfl
  | true =>
      have idle : s.scheduler.active = none := h.sound.closed closed
      exact absurd (idle.symm.trans active) nofun

/-! ## What messages do -/

theorem openDocument (h : Anchored s) (now : Nat) (d : Document) :
    Handled (some d.uri) s (s.openDocument now d) := by
  refine ⟨rfl, rfl, rfl, .of_step _ (.turnTo now (some d.uri)), ?_, ?_, ?_, fun _ => id⟩
  · intro same u active
    have later := Scheduler.generation_turnTo now (some d.uri) (h.serving active)
    exact absurd same later.ne'
  · intro u active
    cases closed : s.scheduler.closed with
    | true =>
        have idle : s.scheduler.active = none := h.sound.closed closed
        rw [Session.openDocument, Scheduler.turnTo_of_closed now _ closed, idle] at active
        cases active
    | false =>
        rw [Session.openDocument, Scheduler.active_turnTo now _ closed] at active
        obtain rfl := Option.some.inj active
        exact ⟨d, Store.get?_insert_self s.store d⟩
  · intro u different none
    exact (Store.get?_insert_of_ne s.store fun same => different (congrArg some same)).trans none

theorem changeDocument (h : Anchored s) (now : Nat) (uri : Uri) (changes : List Change)
    (version : Int32) : Handled none s (s.changeDocument now uri changes version) := by
  cases changed : s.store.change? uri changes version with
  | none =>
      simp only [Session.changeDocument, changed]
      exact ⟨rfl, rfl, rfl, .refl, fun _ _ _ => rfl, h.opened, fun _ _ => id, fun _ => id⟩
  | some result =>
      obtain ⟨updated, store⟩ := result
      obtain ⟨d, found, -, rfl, rfl⟩ := Store.change?_eq_some changed
      have opened : ∀ u, s.scheduler.active = some u →
          ∃ d, (s.store.insert updated).get? u = some d := by
        intro u active
        by_cases same : updated.uri = u
        · exact ⟨updated, same ▸ Store.get?_insert_self s.store updated⟩
        · rw [Store.get?_insert_of_ne s.store same]
          exact h.opened u active
      have absent : ∀ u, s.store.get? u = none → (s.store.insert updated).get? u = none := by
        intro u none
        refine (Store.get?_insert_of_ne s.store ?_).trans none
        rintro rfl
        cases found.symm.trans none
      simp only [Session.changeDocument, changed]
      split
      · rename_i active
        refine ⟨rfl, rfl, rfl, .of_step _ (.schedule now .edit), ?_, ?_, fun u _ => absent u,
          fun _ => id⟩
        · intro same
          have later := Scheduler.generation_schedule now .edit (h.serving active) active
          exact absurd same later.ne'
        · intro u turned
          rw [Scheduler.active_schedule] at turned
          exact opened u turned
      · rename_i inactive
        refine ⟨rfl, rfl, rfl, .refl, ?_, opened, fun u _ => absent u, fun _ => id⟩
        intro _ u active
        refine Store.get?_insert_of_ne s.store ?_
        rintro rfl
        exact inactive active

theorem closeDocument (h : Anchored s) (now : Nat) (uri : Uri) :
    Handled none s (s.closeDocument now uri) := by
  have absent : ∀ u, s.store.get? u = none → (s.store.erase uri).get? u = none := by
    intro u none
    by_cases same : u = uri
    · rw [same, Store.get?_erase_self]
    · rw [Store.get?_erase_of_ne s.store same, none]
  have unlabelled : ∀ u, s.labels? u = none → (s.eraseLabels uri).labels? u = none := by
    intro u none
    by_cases same : u = uri
    · rw [same, labels?_eraseLabels_self]
    · rw [labels?_eraseLabels_of_ne s same, none]
  simp only [Session.closeDocument]
  split
  · rename_i active
    have serving := h.serving active
    refine ⟨rfl, rfl, rfl, .of_step _ (.turnTo now none), ?_, ?_, fun u _ => absent u,
      unlabelled⟩
    · intro same
      exact absurd same (Scheduler.generation_turnTo now none serving).ne'
    · intro u turned
      have idle := Scheduler.active_turnTo now none serving
      cases idle.symm.trans turned
  · rename_i inactive
    have kept : ∀ u, s.scheduler.active = some u →
        (s.store.erase uri).get? u = s.store.get? u := by
      intro u active
      refine Store.get?_erase_of_ne s.store ?_
      rintro rfl
      exact inactive active
    refine ⟨rfl, rfl, rfl, .refl, fun _ => kept, ?_, fun u _ => absent u, unlabelled⟩
    intro u active
    obtain ⟨d, found⟩ := h.opened u active
    exact ⟨d, (kept u active).trans found⟩

theorem changeFocus (h : Anchored s) (now : Nat) (uri : Option Uri) :
    Handled none s (s.changeFocus now uri) := by
  simp only [Session.changeFocus]
  split
  · refine ⟨rfl, rfl, rfl, .of_step _ (.schedule now .focus), fun _ _ _ => rfl, ?_,
      fun _ _ => id, fun _ => id⟩
    intro u active
    rw [Scheduler.active_schedule] at active
    exact h.opened u active
  · refine ⟨rfl, rfl, rfl, .of_step _ (.turnTo now _), fun _ _ _ => rfl, ?_, fun _ _ => id,
      fun _ => id⟩
    intro u active
    cases closed : s.scheduler.closed with
    | true =>
        rw [Scheduler.turnTo_of_closed now _ closed] at active
        exact h.opened u active
    | false =>
        rw [Scheduler.active_turnTo now _ closed] at active
        exact Option.isSome_iff_exists.mp (Option.filter_eq_some_iff.mp active).2

end Anchored

theorem handled_shutdown (s : Session) : Handled none s s.shutdown :=
  ⟨rfl, rfl, rfl, .of_step _ .shutdown, fun _ _ _ => rfl, nofun, fun _ _ => id, fun _ => id⟩

/-! ## What the timer and passes do -/

theorem effect_conclude (arrival : Option Uri) (s : Session) (p : Pass) (outcome : Outcome) :
    Effect arrival s (s.conclude p outcome) := by
  obtain ⟨answers, plain, same⟩ := conclude_eq s p outcome
  rw [same]
  exact .ended (.inl rfl) List.filter_sublist plain

theorem effects_fire (arrival : Option Uri) (s : Session) (now : Nat) :
    Effects arrival s (s.fire now) := by
  cases armed : s.scheduler.timer with
  | none =>
      have still : s.scheduler.cancel = s.scheduler := by rw [Scheduler.cancel, ← armed]
      rw [fire_of_none now armed, still]
      exact .refl
  | some t =>
      rw [fire_of_some now armed]
      refine .single (.begun ?_ rfl rfl)
      rw [system_begin, ← Scheduler.fire_of_some armed]
      exact .of_step s.system .fire

theorem effect_ask (arrival : Option Uri) (s : Session) (now request : Nat) :
    Effect arrival s (s.ask now request) := by
  have refused (idle : s.scheduler.startNow = (none, s.scheduler.cancel)) :
      Effect arrival s (s.ask now request) := by
    rw [ask_of_none now request idle, answer, send, send, List.append_assoc]
    exact .ended (.inr rfl) (.refl _) fun _ => rfl
  cases closed : s.scheduler.closed with
  | true => exact refused (Scheduler.startNow_of_closed closed)
  | false =>
      cases active : s.scheduler.active with
      | none => exact refused (Scheduler.startNow_of_none active)
      | some uri =>
          have started := Scheduler.startNow_of_some closed active
          rw [ask_of_some now request started]
          refine .begun ?_ active.symm rfl
          rw [system_begin, ← started]
          exact .of_step s.system .startNow

theorem effects_callOff (arrival : Option Uri) (s : Session) (request : Nat) :
    Effects arrival s (s.callOff request) := by
  rw [callOff]
  split
  · exact .single (.ended (.inl rfl) List.filter_sublist fun _ => rfl)
  · exact .refl

theorem effects_takeSnapshot (arrival : Option Uri) (s : Session) (g : Nat) :
    Effects arrival s (s.takeSnapshot g) := by
  rw [takeSnapshot]
  split
  · exact .refl
  · rename_i p found
    have member := mem_of_pass? found
    obtain rfl := generation_of_pass? found
    split
    · rename_i begun
      split
      · rename_i d stored
        exact .single (.snapped member begun stored)
      · exact .single (effect_conclude arrival s p .noDocument)
    · exact .refl

theorem effects_finishMeasuring (arrival : Option Uri) (s : Session) (g : Nat) :
    Effects arrival s (s.finishMeasuring g) := by
  rw [finishMeasuring]
  split
  · exact .refl
  · rename_i p found
    have member := mem_of_pass? found
    obtain rfl := generation_of_pass? found
    split
    · rename_i d busy
      exact .single (.measured member busy)
    · exact .refl

theorem effects_recalculate (arrival : Option Uri) (s : Session) (now request : Nat) :
    Effects arrival s (s.recalculate now request) := by
  have asked := effect_ask arrival s now request
  rw [recalculate_eq]
  split
  · exact .head asked (effects_takeSnapshot arrival _ _)
  · exact .single asked

/-! ## What a pass does to publish -/

theorem course_checkLatest (arrival : Option Uri) (s : Session) (g : Nat) :
    Course arrival s (s.checkLatest g) := by
  rw [checkLatest]
  split
  · exact .refl
  · rename_i p found
    have member := mem_of_pass? found
    obtain rfl := generation_of_pass? found
    split
    · rename_i version metrics measured
      split
      · rename_i latest
        exact .single (.inr (.approved member measured (of_decide_eq_true latest).symm))
      · exact .single (.inl (effect_conclude arrival s p .superseded))
    · exact .refl

theorem course_storeLabels (arrival : Option Uri) (s : Session) (g : Nat) :
    Course arrival s (s.storeLabels g) := by
  simp only [storeLabels]
  split
  · exact .refl
  · rename_i p found
    have member := mem_of_pass? found
    obtain rfl := generation_of_pass? found
    split
    · rename_i version metrics approved
      split
      · exact .single (.inr (.labelled member approved fun u away =>
          labels?_eraseLabels_of_ne s away))
      · exact .single (.inr (.labelled member approved fun u away =>
          labels?_insertLabels_of_ne s _ away))
    · exact .refl

theorem course_announce (arrival : Option Uri) (s : Session) (g : Nat) :
    Course arrival s (s.announce g) := by
  cases found : s.pass? g with
  | none =>
      rw [announce_of_none found]
      exact .refl
  | some p =>
      have member := mem_of_pass? found
      cases reached : p.progress with
      | labelled version metrics decorations =>
          obtain ⟨answers, plain, announced⟩ := announce_of_labelled found reached
          obtain rfl := generation_of_pass? found
          rw [announced]
          exact .single (.inr (.announced member reached plain))
      | _ =>
          simp only [announce, found, reached]
          exact .refl

theorem course_publish (arrival : Option Uri) (s : Session) (g : Nat) :
    Course arrival s (s.publish g) :=
  (course_checkLatest arrival s g).trans
    ((course_storeLabels arrival _ g).trans (course_announce arrival _ g))

namespace Anchored

/-! ## What a step does -/

/-- A move that lets no pass publish is made of effects. -/
theorem effects_move {move : Move} (h : Anchored s) (silent : move.publisher? = none) :
    Effects move.arrival? s (s.move move) := by
  cases move with
  | event event =>
      cases event with
      | opened now document => exact .single (.handled (h.openDocument now document))
      | changed now uri changes version =>
          exact .single (.handled (h.changeDocument now uri changes version))
      | closed now uri => exact .single (.handled (h.closeDocument now uri))
      | focused now uri => exact .single (.handled (h.changeFocus now uri))
      | recalculated now request => exact effects_recalculate _ s now request
      | stopped => exact .single (.handled (handled_shutdown s))
      | fired now => exact effects_fire _ s now
      | snapped generation => exact effects_takeSnapshot _ s generation
      | finished generation => cases silent
  | asked now request => exact .single (effect_ask _ s now request)
  | calledOff request => exact effects_callOff _ s request
  | measured generation => exact effects_finishMeasuring _ s generation
  | published generation => cases silent

/-- Every step is made of effects and stages of publication. -/
theorem course_advance (h : Anchored s) (step : Step) :
    Course step.arrival? s (s.advance step) := by
  cases step with
  | move move =>
      cases publishes : move.publisher? with
      | none => exact (h.effects_move publishes).course
      | some g =>
          rcases Move.eq_of_publisher? publishes with rfl | rfl
          · exact (effects_finishMeasuring _ s g).course.trans (course_publish _ _ g)
          · exact course_publish _ s g
  | checked generation => exact course_checkLatest _ s generation
  | stored generation => exact course_storeLabels _ s generation
  | announced generation => exact course_announce _ s generation

theorem advance (h : Anchored s) (step : Step) : Anchored (s.advance step) :=
  h.course (h.course_advance step)

theorem follow (h : Anchored s) (steps : List Step) : Anchored (s.follow steps) := by
  induction steps generalizing s with
  | nil => exact h
  | cons step steps ih => exact ih (h.advance step)

end Anchored

end FunctionMeter.Session
