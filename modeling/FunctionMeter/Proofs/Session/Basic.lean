import FunctionMeter.Proofs.Document.Store
import FunctionMeter.Proofs.Scheduler.System
import FunctionMeter.Session.Basic
import Mathlib

/-!
# What the steps of passes do

A session holds a scheduler and the passes under way, which together are a system in the sense of
`Scheduler.System`. The handlers and the steps of passes act on this system as its actions do. What
else a step does is said by one equation for each step and each state of the pass that takes it. The
end of a pass takes it away and may answer a request; only a pass that publishes sends decorations.
-/

namespace FunctionMeter

/-- The decorations for a document in what is sent. -/
def Outgoing.noticeFor? (uri : Uri) : Outgoing → Option DecorationNotice
  | .decorations notice => if notice.uri = uri then some notice else none
  | _ => none

/-- Nothing in a list of things to send tells the editor what to draw. -/
def Outgoing.Plain (answers : List Outgoing) : Prop :=
  ∀ uri, answers.filterMap (noticeFor? uri) = []

/-- What a pass sends when it ends: a message and an answer, if somebody asked for it. -/
def Pass.replies (p : Pass) (outcome : Outcome) : List Outgoing :=
  match p.request with
  | some request => [.message outcome.message, .counted request outcome.functions?]
  | none => []

theorem Pass.plain_replies (p : Pass) (outcome : Outcome) : Outgoing.Plain (p.replies outcome) := by
  intro uri
  rw [replies]
  split <;> rfl

/-- The labels that a session keeps of decorations. -/
def Decorations.kept? : Decorations → Option (List Label)
  | .clear => none
  | .paint _ labels => some labels

namespace Session

variable {s : Session} {p q : Pass} {d : Document} {g : Nat} {progress : Progress}
variable {version : Int32} {metrics : List Metric} {decorations : Decorations}

/-- The scheduler of a session and its passes. -/
def system (s : Session) : Scheduler.System :=
  ⟨s.scheduler, s.passes.map fun p => (p.uri, p.generation)⟩

/-- The decorations sent for a document so far, the oldest first. -/
def notices (s : Session) (uri : Uri) : List DecorationNotice :=
  s.sent.filterMap (Outgoing.noticeFor? uri)

theorem mem_system (member : p ∈ s.passes) : (p.uri, p.generation) ∈ s.system.passes :=
  List.mem_map_of_mem member

/-! ## The passes of a session -/

theorem mem_of_pass? (found : s.pass? g = some p) : p ∈ s.passes :=
  List.mem_of_find?_eq_some found

theorem generation_of_pass? (found : s.pass? g = some p) : p.generation = g := by
  simpa using List.find?_some found

theorem eq_of_generation (distinct : (s.system.passes.map (·.2)).Nodup) (member : p ∈ s.passes)
    (inside : q ∈ s.passes) (same : q.generation = p.generation) : q = p := by
  rw [system, List.map_map] at distinct
  exact List.inj_on_of_nodup_map distinct inside member same

theorem system_begin (s : Session) (scheduler : Scheduler) (p : Pass) :
    ({ s with scheduler }.begin p).system =
      s.system.begin (some (p.uri, p.generation), scheduler) := by
  rw [begin, system, List.map_append]
  rfl

theorem system_erasePass (s : Session) (g : Nat) (measured : Bool) :
    (s.erasePass g).system = s.system.step (.finish g measured) := by
  rw [erasePass, system, system, Scheduler.System.step, List.filter_map]
  rfl

theorem system_setProgress (s : Session) (g : Nat) (progress : Progress) :
    (s.setProgress g progress).system = s.system := by
  rw [setProgress, system, system, List.map_map]
  congr 2
  funext q
  simp only [Function.comp_apply]
  split <;> rfl

theorem mem_erasePass : q ∈ (s.erasePass g).passes ↔ q ∈ s.passes ∧ q.generation ≠ g := by
  rw [erasePass, List.mem_filter, decide_eq_true_iff]

theorem mem_setProgress (member : q ∈ (s.setProgress g progress).passes) :
    q ∈ s.passes ∧ q.generation ≠ g ∨
      ∃ p ∈ s.passes, p.generation = g ∧ q = { p with progress } := by
  obtain ⟨p, inside, rfl⟩ := List.mem_map.mp member
  by_cases same : p.generation = g
  · exact .inr ⟨p, inside, same, if_pos same⟩
  · rw [if_neg same]
    exact .inl ⟨inside, same⟩

theorem pass?_setProgress_eq_map (s : Session) (g other : Nat) (progress : Progress) :
    (s.setProgress g progress).pass? other =
      (s.pass? other).map fun p => if p.generation = g then { p with progress } else p := by
  have kept : (fun q : Pass => decide (q.generation = other)) ∘
      (fun q => if q.generation = g then { q with progress } else q) =
        fun q => decide (q.generation = other) := by
    funext q
    simp only [Function.comp_apply]
    split <;> rfl
  rw [pass?, setProgress, List.find?_map, kept, pass?]

theorem pass?_setProgress (found : s.pass? g = some p) (progress : Progress) :
    (s.setProgress g progress).pass? g = some { p with progress } := by
  rw [pass?_setProgress_eq_map, found, Option.map_some, if_pos (generation_of_pass? found)]

theorem erasePass_setProgress (s : Session) (g : Nat) (progress : Progress) :
    (s.setProgress g progress).erasePass g = s.erasePass g := by
  rw [erasePass, setProgress, erasePass]
  congr 1
  induction s.passes with
  | nil => rfl
  | cons p passes ih => by_cases same : p.generation = g <;> simpa [same] using ih

theorem pass?_erasePass (s : Session) (g : Nat) : (s.erasePass g).pass? g = none := by
  rw [pass?, List.find?_eq_none]
  intro q member
  simpa using (mem_erasePass.mp member).2

/-! ## The labels of a session -/

theorem lookup_filter_of_ne {α β : Type} [DecidableEq α] {key other : α} (entries : List (α × β))
    (different : other ≠ key) :
    (entries.filter (·.1 ≠ key)).lookup other = entries.lookup other := by
  induction entries with
  | nil => rfl
  | cons entry entries ih =>
      by_cases same : entry.1 = key
      · have away : (other == entry.1) = false := by simpa [same] using different
        rw [List.filter_cons_of_neg (by simpa using same), ih, List.lookup_cons, away]
      · rw [List.filter_cons_of_pos (by simpa using same), List.lookup_cons, List.lookup_cons, ih]

theorem labels?_eraseLabels_self (s : Session) (uri : Uri) :
    (s.eraseLabels uri).labels? uri = none := by
  rw [labels?, eraseLabels, List.lookup_eq_none_iff]
  intro entry member
  have kept : entry.1 ≠ uri := of_decide_eq_true (List.mem_filter.mp member).2
  exact bne_iff_ne.mpr kept.symm

theorem labels?_eraseLabels_of_ne (s : Session) {uri other : Uri} (different : other ≠ uri) :
    (s.eraseLabels uri).labels? other = s.labels? other :=
  lookup_filter_of_ne s.labels different

theorem labels?_insertLabels_of_ne (s : Session) {uri other : Uri} (labels : List Label)
    (different : other ≠ uri) : (s.insertLabels uri labels).labels? other = s.labels? other := by
  have away : (other == uri) = false := beq_false_of_ne different
  rw [labels?, insertLabels, List.lookup_cons, away]
  exact labels?_eraseLabels_of_ne s different

/-- Stores what hints for a document are answered from. -/
def setLabels (s : Session) (uri : Uri) (decorations : Decorations) : Session :=
  { s with
    labels := if decorations.isClear then (s.eraseLabels uri).labels
      else (s.insertLabels uri decorations.labels).labels }

theorem labels?_setLabels_self (s : Session) (uri : Uri) (decorations : Decorations) :
    (s.setLabels uri decorations).labels? uri = decorations.kept? := by
  cases decorations with
  | clear => exact labels?_eraseLabels_self s uri
  | paint highlights labels =>
      show ((uri, labels) :: _).lookup uri = some labels
      rw [List.lookup_cons_self]

theorem labels?_setLabels_of_ne {uri other : Uri} (s : Session) (different : other ≠ uri)
    (decorations : Decorations) :
    (s.setLabels uri decorations).labels? other = s.labels? other := by
  cases decorations with
  | clear => exact labels?_eraseLabels_of_ne s different
  | paint highlights labels => exact labels?_insertLabels_of_ne s labels different

/-! ## Timers that run out -/

theorem fire_of_some {timer : Timer} (now : Nat) (armed : s.scheduler.timer = some timer) :
    s.fire now = { s with scheduler := s.scheduler.cancel }.begin
      { uri := timer.uri, generation := timer.generation, began := now } := by
  simp only [fire, Scheduler.fire_of_some armed]

theorem fire_of_none (now : Nat) (disarmed : s.scheduler.timer = none) :
    s.fire now = { s with scheduler := s.scheduler.cancel } := by
  simp only [fire, Scheduler.fire_of_none disarmed]

/-! ## Ends of passes -/

theorem conclude_eq_replies (s : Session) (p : Pass) (outcome : Outcome) :
    s.conclude p outcome =
      { s.erasePass p.generation with sent := s.sent ++ p.replies outcome } := by
  cases asked : p.request with
  | none =>
      simp only [conclude, Pass.replies, asked, List.append_nil]
      rfl
  | some request =>
      simp only [conclude, Pass.replies, asked, answer, send, List.append_assoc]
      rfl

theorem conclude_eq (s : Session) (p : Pass) (outcome : Outcome) :
    ∃ answers, Outgoing.Plain answers ∧
      s.conclude p outcome = { s.erasePass p.generation with sent := s.sent ++ answers } :=
  ⟨_, p.plain_replies outcome, conclude_eq_replies s p outcome⟩

theorem pass?_conclude (s : Session) (p : Pass) (outcome : Outcome) :
    (s.conclude p outcome).pass? p.generation = none := by
  obtain ⟨answers, -, same⟩ := conclude_eq s p outcome
  rw [same]
  exact pass?_erasePass s p.generation

/-! ## Snapshots -/

theorem takeSnapshot_of_none (absent : s.pass? g = none) : s.takeSnapshot g = s := by
  simp only [takeSnapshot, absent]

theorem takeSnapshot_of_measuring (found : s.pass? g = some p) (busy : p.progress = .measuring d) :
    s.takeSnapshot g = s := by
  simp only [takeSnapshot, found, busy]

theorem takeSnapshot_of_begun (found : s.pass? g = some p) (begun : p.progress = .begun)
    (opened : s.store.get? p.uri = some d) : s.takeSnapshot g = s.setProgress g (.measuring d) := by
  simp only [takeSnapshot, found, begun, opened]

theorem takeSnapshot_of_closed (found : s.pass? g = some p) (begun : p.progress = .begun)
    (absent : s.store.get? p.uri = none) : s.takeSnapshot g = s.conclude p .noDocument := by
  simp only [takeSnapshot, found, begun, absent]

/-! ## The check of a pass and its publication -/

theorem finishMeasuring_of_measuring (found : s.pass? g = some p)
    (busy : p.progress = .measuring d) :
    s.finishMeasuring g = s.setProgress g (.measured d.version (s.provider.measure d)) := by
  simp only [finishMeasuring, found, busy]

theorem finishMeasuring_eq (s : Session) (g : Nat) :
    ∃ passes, s.finishMeasuring g = { s with passes } := by
  rw [finishMeasuring]
  split
  · exact ⟨s.passes, rfl⟩
  · split
    · exact ⟨_, rfl⟩
    · exact ⟨s.passes, rfl⟩

theorem checkLatest_of_latest (found : s.pass? g = some p)
    (measured : p.progress = .measured version metrics) (latest : s.scheduler.generation = g) :
    s.checkLatest g = s.setProgress g (.approved version metrics) := by
  have approved : s.scheduler.isLatest g = true := decide_eq_true latest
  simp only [checkLatest, found, measured, approved, if_true]

theorem checkLatest_of_stale (found : s.pass? g = some p)
    (measured : p.progress = .measured version metrics) (stale : s.scheduler.generation ≠ g) :
    s.checkLatest g = s.conclude p .superseded := by
  have refused : s.scheduler.isLatest g = false := decide_eq_false stale
  simp only [checkLatest, found, measured, refused, Bool.false_eq_true, if_false]

theorem storeLabels_of_none (absent : s.pass? g = none) : s.storeLabels g = s := by
  simp only [storeLabels, absent]

theorem storeLabels_eq (found : s.pass? g = some p)
    (approved : p.progress = .approved version metrics) :
    s.storeLabels g = (s.setLabels p.uri (Decorations.ofMetrics s.config metrics)).setProgress g
      (.labelled version metrics (Decorations.ofMetrics s.config metrics)) := by
  simp only [storeLabels, found, approved, setLabels]
  split <;> rfl

theorem announce_of_none (absent : s.pass? g = none) : s.announce g = s := by
  simp only [announce, absent]

/-- A wish that the editor fetch its hints again, where the editor wants to hear it. -/
def wishes (s : Session) : List Outgoing := if s.refreshes then [.refreshHints] else []

theorem plain_wishes_replies (s : Session) (p : Pass) (outcome : Outcome) :
    Outgoing.Plain (s.wishes ++ p.replies outcome) := by
  intro uri
  rw [List.filterMap_append, p.plain_replies, List.append_nil, wishes]
  split <;> rfl

theorem announce_eq (found : s.pass? g = some p)
    (labelled : p.progress = .labelled version metrics decorations) :
    s.announce g = { s.erasePass g with
      sent := s.sent ++ .decorations ⟨p.uri, version, decorations⟩ ::
        (s.wishes ++ p.replies (.published metrics.length)) } := by
  obtain rfl := generation_of_pass? found
  have wished (told : Outgoing) :
      (if (s.send told).refreshes then (s.send told).send .refreshHints else s.send told) =
        { s with sent := s.sent ++ told :: s.wishes } := by
    change (if s.refreshes = true then _ else _) = _
    rw [wishes]
    split
    · simp only [send, List.append_assoc, List.singleton_append]
    · rfl
  simp only [announce, found, labelled]
  rw [wished, conclude_eq_replies]
  simp only [List.append_assoc, List.cons_append]
  rfl

theorem announce_of_labelled (found : s.pass? g = some p)
    (labelled : p.progress = .labelled version metrics decorations) :
    ∃ answers, Outgoing.Plain answers ∧
      s.announce g = { s.erasePass g with
        sent := s.sent ++ .decorations ⟨p.uri, version, decorations⟩ :: answers } :=
  ⟨_, plain_wishes_replies s p _, announce_eq found labelled⟩

theorem publish_of_none (absent : s.pass? g = none) : s.publish g = s := by
  have unchecked : s.checkLatest g = s := by simp only [checkLatest, absent]
  rw [publish, unchecked, storeLabels_of_none absent, announce_of_none absent]

/-- A pass that has not measured yet publishes nothing. -/
theorem publish_of_unmeasured (found : s.pass? g = some p)
    (early : p.progress = .begun ∨ ∃ d, p.progress = .measuring d) : s.publish g = s := by
  have unchecked : s.checkLatest g = s := by
    rcases early with begun | ⟨d, busy⟩
    · simp only [checkLatest, found, begun]
    · simp only [checkLatest, found, busy]
  have unstored : s.storeLabels g = s := by
    rcases early with begun | ⟨d, busy⟩
    · simp only [storeLabels, found, begun]
    · simp only [storeLabels, found, busy]
  rw [publish, unchecked, unstored]
  rcases early with begun | ⟨d, busy⟩
  · simp only [announce, found, begun]
  · simp only [announce, found, busy]

/-- A pass that has measured but is no longer the latest ends and draws nothing. -/
theorem publish_of_stale (found : s.pass? g = some p)
    (measured : p.progress = .measured version metrics) (stale : s.scheduler.generation ≠ g) :
    ∃ answers, Outgoing.Plain answers ∧
      s.publish g = { s.erasePass g with sent := s.sent ++ answers } := by
  obtain rfl := generation_of_pass? found
  have gone := pass?_conclude s p .superseded
  obtain ⟨answers, plain, ended⟩ := conclude_eq s p .superseded
  refine ⟨answers, plain, ?_⟩
  rw [publish, checkLatest_of_stale found measured stale, storeLabels_of_none gone,
    announce_of_none gone, ended]

/-- The latest pass stores its labels and sends its decorations, and ends. -/
theorem publish_eq (found : s.pass? g = some p)
    (measured : p.progress = .measured version metrics) (latest : s.scheduler.generation = g) :
    s.publish g =
      { (s.setLabels p.uri (Decorations.ofMetrics s.config metrics)).erasePass g with
        sent := s.sent ++
          .decorations ⟨p.uri, version, Decorations.ofMetrics s.config metrics⟩ ::
            (s.wishes ++ p.replies (.published metrics.length)) } := by
  have approved := pass?_setProgress found (.approved version metrics)
  have labelled := pass?_setProgress
    (s := (s.setProgress g (.approved version metrics)).setLabels p.uri
      (Decorations.ofMetrics s.config metrics))
    approved (.labelled version metrics (Decorations.ofMetrics s.config metrics))
  rw [publish, checkLatest_of_latest found measured latest, storeLabels_eq approved rfl]
  refine (announce_eq labelled rfl).trans ?_
  rw [erasePass_setProgress, ← erasePass_setProgress (s.setLabels p.uri _) g
    (.approved version metrics)]
  rfl

/-- The latest pass sends decorations for what it has measured, and ends. -/
theorem publish_of_latest (found : s.pass? g = some p)
    (measured : p.progress = .measured version metrics) (latest : s.scheduler.generation = g) :
    ∃ labels answers, Outgoing.Plain answers ∧
      s.publish g = { s.erasePass g with
        labels
        sent := s.sent ++ .decorations ⟨p.uri, version,
          Decorations.ofMetrics s.config metrics⟩ :: answers } :=
  ⟨_, _, plain_wishes_replies s p _, publish_eq found measured latest⟩

theorem finish_of_none (absent : s.pass? g = none) : s.finish g = s := by
  have unmeasured : s.finishMeasuring g = s := by simp only [finishMeasuring, absent]
  rw [finish, unmeasured, publish_of_none absent]

/-- A pass that has no snapshot yet cannot finish. -/
theorem finish_of_begun (found : s.pass? g = some p) (begun : p.progress = .begun) :
    s.finish g = s := by
  have unmeasured : s.finishMeasuring g = s := by simp only [finishMeasuring, found, begun]
  rw [finish, unmeasured, publish_of_unmeasured found (.inl begun)]

/-- A pass that is no longer the latest ends and draws nothing. -/
theorem finish_of_stale (found : s.pass? g = some p) (busy : p.progress = .measuring d)
    (stale : s.scheduler.generation ≠ g) :
    ∃ answers, Outgoing.Plain answers ∧
      s.finish g = { s.erasePass g with sent := s.sent ++ answers } := by
  have measured := pass?_setProgress found (.measured d.version (s.provider.measure d))
  obtain ⟨answers, plain, ended⟩ := publish_of_stale measured rfl stale
  refine ⟨answers, plain, ?_⟩
  rw [finish, finishMeasuring_of_measuring found busy, ended, erasePass_setProgress]
  rfl

/-- The latest pass sends decorations for the document of its snapshot, and ends. -/
theorem finish_of_latest (found : s.pass? g = some p) (busy : p.progress = .measuring d)
    (latest : s.scheduler.generation = g) :
    ∃ labels answers, Outgoing.Plain answers ∧
      s.finish g = { s.erasePass g with
        labels
        sent := s.sent ++ .decorations ⟨p.uri, d.version,
          Decorations.ofMetrics s.config (s.provider.measure d)⟩ :: answers } := by
  have measured := pass?_setProgress found (.measured d.version (s.provider.measure d))
  obtain ⟨labels, answers, plain, published⟩ := publish_of_latest measured rfl latest
  refine ⟨labels, answers, plain, ?_⟩
  rw [finish, finishMeasuring_of_measuring found busy, published, erasePass_setProgress]
  rfl

end Session

end FunctionMeter
