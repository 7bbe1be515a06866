import FunctionMeter.Proofs.Session.Acts
import FunctionMeter.Proofs.Session.Closing
import Mathlib

/-!
# What a request for a pass leads to

A request for a pass is refused if no document is active. Otherwise the pass takes its snapshot at
once, which cannot fail since the active document is open. From then on it works on this snapshot
whatever else happens, and it ends in one of three ways: called off, with the answer that something
newer has happened, or with the decorations of the snapshot and the number of its functions.

`Errand` follows such a pass through any steps, together with what it has sent.
-/

namespace FunctionMeter

namespace Outcome

theorem message_published_ne (functions : Nat) :
    (published functions).message ≠ noDocument.message := by
  intro same
  have texts : ("funcloc: measured " ++ functions.repr ++ " functions").toList[9]? =
      "funcloc: no active document".toList[9]? := congrArg (·.toList[9]?) same
  rw [String.toList_append, String.toList_append, List.append_assoc,
    List.getElem?_append_left (by decide)] at texts
  exact absurd texts (by decide)

theorem message_superseded_ne : superseded.message ≠ noDocument.message := by decide

end Outcome

namespace Session

open Scheduler.System (Sound Evolves Spent)

variable {s s' : Session} {p : Pass} {d : Document} {g : Nat} {out : List Outgoing}

/-! ## Who sends what -/

/-- The generation whose pass acts in a step. -/
def Step.actor? (step : Step) : Option Nat := step.acts?.map (·.1)

/-- What a step adds to what was sent. -/
def sentIn (s : Session) (step : Step) : List Outgoing := (s.advance step).sent.drop s.sent.length

/-- What the pass of a generation sends in the course of steps. -/
def sentBy (g : Nat) (s : Session) : List Step → List Outgoing
  | [] => []
  | step :: steps =>
    (if step.actor? = some g then s.sentIn step else []) ++ sentBy g (s.advance step) steps

/-- What a request for a pass leads to: what is sent at once, and what the pass that it begins sends
in the course of later steps. -/
def recalculation (s : Session) (now request : Nat) (since : List Step) : List Outgoing :=
  (s.recalculate now request).sent.drop s.sent.length ++
    match s.scheduler.startNow.1 with
    | some (_, g) => sentBy g (s.recalculate now request) since
    | none => []

/-- The sessions that steps can lead to, with passes interrupted anywhere. -/
def Attained (s : Session) : Prop :=
  ∃ provider config refreshes history, s = (initial provider config refreshes).follow history

theorem Attained.anchored (attained : Attained s) : Anchored s := by
  obtain ⟨provider, config, refreshes, history, rfl⟩ := attained
  exact (anchored_initial provider config refreshes).follow history

/-! ## Passes that other steps leave alone -/

theorem acted_foldl (s : Session) (g : Nat) (acts : List Act) :
    Acted g s (acts.foldl (fun s a => s.act g a) s) := by
  induction acts generalizing s with
  | nil => exact .refl s
  | cons a acts ih => exact (acted_act s g a).trans (ih (s.act g a))

theorem sameService_ask (s : Session) (now request : Nat) :
    SameService s (s.ask now request) := by
  simp only [ask]
  split <;> exact ⟨rfl, rfl, rfl⟩

/-- A step that is no act leaves the service as it is. -/
theorem sameService_of_inert (s : Session) {step : Step} (inert : step.acts? = none) :
    SameService s (s.advance step) := by
  cases step with
  | move move =>
      cases move with
      | event event =>
          cases event with
          | opened now document => exact ⟨rfl, rfl, rfl⟩
          | changed now uri changes version =>
              simp only [advance, Session.move, Session.step, changeDocument]
              split
              · exact .refl s
              · split <;> exact ⟨rfl, rfl, rfl⟩
          | closed now uri =>
              simp only [advance, Session.move, Session.step, closeDocument]
              split <;> exact ⟨rfl, rfl, rfl⟩
          | focused now uri =>
              simp only [advance, Session.move, Session.step, changeFocus]
              split <;> exact ⟨rfl, rfl, rfl⟩
          | recalculated now request =>
              show SameService s (s.recalculate now request)
              rw [recalculate_eq]
              have asked := sameService_ask s now request
              split
              · exact asked.trans (acted_act _ _ .snap).service
              · exact asked
          | stopped => exact ⟨rfl, rfl, rfl⟩
          | fired now =>
              simp only [advance, Session.move, Session.step, fire]
              split <;> exact ⟨rfl, rfl, rfl⟩
          | _ => cases inert
      | asked now request => exact sameService_ask s now request
      | calledOff request =>
          simp only [advance, Session.move, callOff]
          split <;> exact ⟨rfl, rfl, rfl⟩
      | _ => cases inert
  | _ => cases inert

theorem sameService_advance (s : Session) (step : Step) : SameService s (s.advance step) := by
  cases made : step.acts? with
  | none => exact sameService_of_inert s made
  | some acting =>
      rw [advance_of_acts made]
      exact (acted_foldl s acting.1 acting.2).service

theorem sameService_follow (s : Session) (steps : List Step) : SameService s (s.follow steps) := by
  induction steps generalizing s with
  | nil => exact .refl s
  | cons step steps ih => exact (sameService_advance s step).trans (ih (s.advance step))

theorem pass?_begin (found : s.pass? g = some p) (scheduler : Scheduler) (q : Pass) :
    ({ s with scheduler }.begin q).pass? g = some p := by
  rw [pass?, begin, List.find?_append]
  rw [pass?] at found
  rw [found, Option.some_or]

theorem pass?_fire (found : s.pass? g = some p) (now : Nat) : (s.fire now).pass? g = some p := by
  simp only [fire]
  split
  · exact pass?_begin found _ _
  · exact found

theorem pass?_ask (found : s.pass? g = some p) (now request : Nat) :
    (s.ask now request).pass? g = some p := by
  simp only [ask]
  split
  · exact pass?_begin found _ _
  · exact found

theorem Anchored.pass?_recalculate (h : Anchored s) (found : s.pass? g = some p)
    (now request : Nat) : (s.recalculate now request).pass? g = some p := by
  have asked := pass?_ask found now request
  rw [recalculate_eq]
  split
  · rename_i pass started
    have bound : p.generation ≤ s.scheduler.generation :=
      h.sound.bound _ (mem_system (mem_of_pass? found))
    have own := generation_of_pass? found
    have new := (Scheduler.startNow_eq_some started).2.2
    exact ((acted_act _ pass.2 .snap).others g (by omega)).trans asked
  · exact asked

theorem Anchored.pass?_callOff (h : Anchored s) (found : s.pass? g = some p) (request : Nat) :
    (s.callOff request).pass? g = some p ∨
      (s.callOff request).pass? g = none ∧ (s.callOff request).scheduler = s.scheduler := by
  rw [callOff]
  split
  · cases left : { s with passes := s.passes.filter (·.request ≠ some request) }.pass? g with
    | none => exact .inr ⟨left, rfl⟩
    | some q =>
        have inside : q ∈ s.passes := (List.mem_filter.mp (mem_of_pass? left)).1
        have same := (generation_of_pass? left).trans (generation_of_pass? found).symm
        obtain rfl := eq_of_generation h.sound.distinct (mem_of_pass? found) inside same
        exact .inl left
  · exact .inl found

/-- A step that is no act leaves a pass as it is, or calls it off. -/
theorem Anchored.pass?_of_inert (h : Anchored s) {step : Step} (inert : step.acts? = none)
    (found : s.pass? g = some p) :
    (s.advance step).pass? g = some p ∨
      (s.advance step).pass? g = none ∧ (s.advance step).scheduler = s.scheduler := by
  have handled {arrival : Option Uri} {s' : Session} (handled : Handled arrival s s') :
      s'.pass? g = some p := by
    rw [pass?, handled.passes]
    exact found
  cases step with
  | move move =>
      cases move with
      | event event =>
          cases event with
          | opened now document => exact .inl (handled (h.openDocument now document))
          | changed now uri changes version =>
              exact .inl (handled (h.changeDocument now uri changes version))
          | closed now uri => exact .inl (handled (h.closeDocument now uri))
          | focused now uri => exact .inl (handled (h.changeFocus now uri))
          | recalculated now request => exact .inl (h.pass?_recalculate found now request)
          | stopped => exact .inl (handled (handled_shutdown s))
          | fired now => exact .inl (pass?_fire found now)
          | _ => cases inert
      | asked now request => exact .inl (pass?_ask found now request)
      | calledOff request => exact h.pass?_callOff found request
      | _ => cases inert
  | _ => cases inert

/-! ## The errand of a pass -/

/-- What a pass holds that works on a snapshot. -/
inductive Carries (s : Session) (d : Document) : Progress → Prop
  | measuring : Carries s d (.measuring d)
  | measured : Carries s d (.measured d.version (s.provider.measure d))
  | approved : Carries s d (.approved d.version (s.provider.measure d))
  | labelled : Carries s d (.labelled d.version (s.provider.measure d)
      (Decorations.ofMetrics s.config (s.provider.measure d)))

/-- What a pass sends that publishes its snapshot. -/
def report (s : Session) (p : Pass) (d : Document) : List Outgoing :=
  .decorations ⟨p.uri, d.version, Decorations.ofMetrics s.config (s.provider.measure d)⟩ ::
    (s.wishes ++ p.replies (.published (s.provider.measure d).length))

/-- A pass works on its snapshot and has sent nothing yet, or it has ended. -/
inductive Errand (p : Pass) (d : Document) (s : Session) : List Outgoing → Prop
  | underway {progress : Progress} (found : s.pass? p.generation = some { p with progress })
      (carries : Carries s d progress) : Errand p d s []
  | ended {out : List Outgoing} (spent : Spent s.system p.generation)
      (result : out = [] ∨ out = p.replies .superseded ∨ out = s.report p d) : Errand p d s out

theorem Carries.keep {progress : Progress} (h : Carries s d progress) (same : SameService s s') :
    Carries s' d progress := by
  cases h with
  | measuring => exact .measuring
  | measured => exact same.provider ▸ .measured
  | approved => exact same.provider ▸ .approved
  | labelled => exact same.provider ▸ same.config ▸ .labelled

theorem SameService.report (same : SameService s s') (p : Pass) (d : Document) :
    s'.report p d = s.report p d := by
  rw [Session.report, wishes, same.provider, same.config, same.refreshes]
  rfl

/-- When a pass goes, its generation is over. -/
theorem spent_of_gone (sound : Sound s.system) (found : s.pass? g = some p)
    (same : s'.scheduler = s.scheduler) (gone : s'.pass? g = none) : Spent s'.system g := by
  have member := mem_system (mem_of_pass? found)
  obtain rfl := generation_of_pass? found
  refine ⟨?_, ?_, ?_⟩
  · show p.generation ≤ s'.scheduler.generation
    rw [same]
    exact sound.bound _ member
  · intro t armed
    have timer : s'.scheduler.timer = s.scheduler.timer := congrArg Scheduler.timer same
    exact (sound.fresh t (timer.symm.trans armed) _ member).symm
  · intro pass inside
    obtain ⟨q, kept, rfl⟩ := List.mem_map.mp inside
    rw [pass?, List.find?_eq_none] at gone
    simpa using gone q kept

theorem pass?_eq_none (spent : Spent s.system g) : s.pass? g = none := by
  rw [pass?, List.find?_eq_none]
  intro q member same
  exact spent.passes _ (mem_system member) (of_decide_eq_true same)

namespace Errand

/-- What the pass does in its turn brings its errand further or to its end. -/
theorem deed {progress : Progress} {new : List Outgoing} (sound : Sound s.system)
    (found : s.pass? p.generation = some { p with progress }) (carries : Carries s d progress)
    (deed : Deed s { p with progress } new s') : Errand p d s' new := by
  have service := deed.acted.service
  cases deed with
  | snapped begun | unfound begun =>
      -- A pass that has its snapshot takes no other.
      cases begun
      cases carries
  | measured busy =>
      cases busy
      cases carries
      exact .underway (pass?_setProgress found _) .measured
  | approved measured latest =>
      cases measured
      cases carries
      exact .underway (pass?_setProgress found _) .approved
  | superseded measured stale =>
      refine .ended ?_ (.inr (.inl rfl))
      exact spent_of_gone sound found rfl (pass?_erasePass s _)
  | labelled approved =>
      cases approved
      cases carries
      refine .underway (pass?_setProgress (s := s.setLabels p.uri _) found _) ?_
      exact Carries.keep (s := s) .labelled service
  | announced labelled =>
      cases labelled
      cases carries
      refine .ended ?_ (.inr (.inr (service.report p d).symm))
      exact spent_of_gone sound found rfl (pass?_erasePass s _)

theorem uri (h : Errand p d s out) {q : Pass} (found : s.pass? p.generation = some q) :
    q.uri = p.uri := by
  cases h with
  | underway own carries => rw [Option.some.inj (found.symm.trans own)]
  | ended spent => exact absurd (found.symm.trans (pass?_eq_none spent)) nofun

theorem result (h : Errand p d s out) :
    out = [] ∨ out = p.replies .superseded ∨ out = s.report p d := by
  cases h with
  | underway => exact .inl rfl
  | ended spent result => exact result

theorem act (h : Errand p d s out) (anchored : Anchored s) (a : Act) :
    ∃ new, (s.act p.generation a).sent = s.sent ++ new ∧
      Errand p d (s.act p.generation a) (out ++ new) := by
  obtain idle | ⟨q, new, found, deed⟩ := act_cases s p.generation a
  · rw [idle]
    exact ⟨[], (List.append_nil _).symm, (List.append_nil out).symm ▸ h⟩
  · refine ⟨new, deed.sent, ?_⟩
    cases h with
    | underway own carries =>
        obtain rfl := Option.some.inj (found.symm.trans own)
        exact Errand.deed anchored.sound own carries deed
    | ended spent => exact absurd (found.symm.trans (pass?_eq_none spent)) nofun

theorem acts (h : Errand p d s out) (anchored : Anchored s) (acts : List Act) :
    ∃ new, (acts.foldl (fun s a => s.act p.generation a) s).sent = s.sent ++ new ∧
      Errand p d (acts.foldl (fun s a => s.act p.generation a) s) (out ++ new) := by
  induction acts generalizing s out with
  | nil => exact ⟨[], (List.append_nil _).symm, (List.append_nil out).symm ▸ h⟩
  | cons a acts ih =>
      obtain ⟨first, told, errand⟩ := h.act anchored a
      obtain ⟨rest, later, done⟩ := ih errand (anchored.act p.generation a)
      refine ⟨first ++ rest, ?_, ?_⟩
      · rw [List.foldl_cons, later, told, List.append_assoc]
      · rw [List.foldl_cons, ← List.append_assoc]
        exact done

/-- An errand goes on while its pass is left as it is, and is over when its generation is. -/
theorem keep (h : Errand p d s out) (service : SameService s s')
    (evolves : Evolves s.system s'.system)
    (kept : ∀ q, s.pass? p.generation = some q →
      s'.pass? p.generation = some q ∨ Spent s'.system p.generation) : Errand p d s' out := by
  cases h with
  | underway found carries =>
      obtain still | spent := kept _ found
      · exact .underway still (carries.keep service)
      · exact .ended spent (.inl rfl)
  | ended spent result =>
      refine .ended (evolves.spent spent) ?_
      rw [service.report]
      exact result

/-- The steps of others leave an errand alone, unless they call it off. -/
theorem elsewhere (h : Errand p d s out) (anchored : Anchored s) {step : Step}
    (other : step.actor? ≠ some p.generation) : Errand p d (s.advance step) out := by
  have evolves := (anchored.course_advance step).evolves
  cases made : step.acts? with
  | none =>
      refine h.keep (sameService_of_inert s made) evolves ?_
      intro q found
      obtain still | ⟨gone, same⟩ := anchored.pass?_of_inert made found
      · exact .inl still
      · exact .inr (spent_of_gone anchored.sound found same gone)
  | some acting =>
      obtain ⟨actor, acts⟩ := acting
      have acted := acted_foldl s actor acts
      rw [← advance_of_acts made] at acted
      have different : p.generation ≠ actor := by
        rintro rfl
        exact other (by rw [Step.actor?, made, Option.map_some])
      refine h.keep acted.service evolves ?_
      intro q found
      exact .inl ((acted.others _ different).trans found)

theorem advance (h : Errand p d s out) (anchored : Anchored s) (step : Step) :
    Errand p d (s.advance step)
      (out ++ if step.actor? = some p.generation then s.sentIn step else []) := by
  split
  · rename_i own
    obtain ⟨⟨actor, acts⟩, made, rfl⟩ := Option.map_eq_some_iff.mp own
    obtain ⟨new, told, errand⟩ := h.acts anchored acts
    rw [sentIn, advance_of_acts made, told, List.drop_left]
    exact errand
  · rename_i other
    rw [List.append_nil]
    exact h.elsewhere anchored other

theorem follow (h : Errand p d s out) (anchored : Anchored s) (steps : List Step) :
    Errand p d (s.follow steps) (out ++ sentBy p.generation s steps) := by
  induction steps generalizing s out with
  | nil =>
      rw [sentBy, List.append_nil]
      exact h
  | cons step steps ih =>
      rw [sentBy, ← List.append_assoc]
      exact ih (h.advance anchored step) (anchored.advance step)

end Errand

/-! ## Requests for passes -/

theorem recalculation_of_refused (idle : s.scheduler.active = none ∨ s.scheduler.closed = true)
    (now request : Nat) (since : List Step) :
    s.recalculation now request since =
      [.message Outcome.noDocument.message, .counted request none] := by
  have refused : s.scheduler.startNow = (none, s.scheduler.cancel) := by
    obtain none | closed := idle
    · exact Scheduler.startNow_of_none none
    · exact Scheduler.startNow_of_closed closed
  have told : (s.recalculate now request).sent =
      s.sent ++ [.message Outcome.noDocument.message, .counted request none] := by
    simp only [recalculate, refused, answer, send, List.append_assoc]
    rfl
  rw [recalculation, told, List.drop_left, refused]
  rfl

namespace Anchored

variable {uri : Uri}

/-- The pass that a request begins has its snapshot at once. -/
theorem errand_recalculate (h : Anchored s) (active : s.scheduler.active = some uri)
    (stored : s.store.get? uri = some d) (now request : Nat) :
    (s.recalculate now request).sent = s.sent ∧
      Errand ⟨uri, s.scheduler.generation + 1, now, some request, .begun⟩ d
        (s.recalculate now request) [] := by
  have started := Scheduler.startNow_of_some (h.serving active) active
  have asked := ask_of_some now request started
  have unused : s.passes.find? (·.generation = s.scheduler.generation + 1) = none := by
    rw [List.find?_eq_none]
    intro q member same
    have bound : q.generation ≤ s.scheduler.generation := h.sound.bound _ (mem_system member)
    have new : q.generation = s.scheduler.generation + 1 := of_decide_eq_true same
    omega
  have found : (s.ask now request).pass? (s.scheduler.generation + 1) =
      some ⟨uri, s.scheduler.generation + 1, now, some request, .begun⟩ := by
    rw [asked, pass?, begin, List.find?_append, unused]
    simp
  have present : (s.ask now request).store.get? uri = some d := by
    rw [asked]
    exact stored
  have snapped : s.recalculate now request =
      (s.ask now request).setProgress (s.scheduler.generation + 1) (.measuring d) := by
    rw [← takeSnapshot_of_begun found rfl present]
    simp only [recalculate, ask, started]
  rw [snapped]
  refine ⟨?_, .underway (pass?_setProgress found _) .measuring⟩
  rw [asked]
  rfl

/-- Only the pass that it begins answers a request while a document is active. -/
theorem recalculation_eq_sentBy (h : Anchored s) (active : s.scheduler.active = some uri)
    (now request : Nat) (since : List Step) :
    s.recalculation now request since =
      sentBy (s.scheduler.generation + 1) (s.recalculate now request) since := by
  obtain ⟨d, stored⟩ := h.opened uri active
  rw [recalculation, (h.errand_recalculate active stored now request).1, List.drop_length,
    List.nil_append, Scheduler.startNow_of_some (h.serving active) active]

/-- A request while a document is active leads to nothing, to the answer that something newer has
happened, or to the publication of this document as it stands. -/
theorem recalculation_cases (h : Anchored s) (active : s.scheduler.active = some uri)
    (stored : s.store.get? uri = some d) (now request : Nat) (since : List Step) :
    s.recalculation now request since = [] ∨
      s.recalculation now request since =
        [.message Outcome.superseded.message, .counted request none] ∨
      s.recalculation now request since =
        .decorations ⟨uri, d.version, Decorations.ofMetrics s.config (s.provider.measure d)⟩ ::
          (s.wishes ++ [.message (Outcome.published (s.provider.measure d).length).message,
            .counted request (some (s.provider.measure d).length)]) := by
  have errand := (h.errand_recalculate active stored now request).2
  have later : Anchored (s.recalculate now request) :=
    h.advance (.move (.event (.recalculated now request)))
  have service : SameService s ((s.recalculate now request).follow since) :=
    sameService_follow s (.move (.event (.recalculated now request)) :: since)
  have result := (errand.follow later since).result
  rw [service.report] at result
  rw [h.recalculation_eq_sentBy active]
  exact result

end Anchored

theorem mem_publication {notice : DecorationNotice} {text : String} {request : Nat}
    {functions : Option Nat} {sent : Outgoing}
    (member : sent ∈ Outgoing.decorations notice ::
      (s.wishes ++ [.message text, .counted request functions])) :
    sent = .decorations notice ∨ sent = .refreshHints ∨ sent = .message text ∨
      sent = .counted request functions := by
  rw [wishes] at member
  split at member
  · simpa using member
  · simp only [List.nil_append, List.mem_cons, List.not_mem_nil, or_false] at member
    exact member.imp_right .inr

theorem Anchored.pass?_eq_some (h : Anchored s) (member : p ∈ s.passes) :
    s.pass? p.generation = some p := by
  cases found : s.pass? p.generation with
  | none => exact absurd (decide_eq_true rfl) (List.find?_eq_none.mp found p member)
  | some q =>
      have same := generation_of_pass? found
      rw [eq_of_generation h.sound.distinct member (mem_of_pass? found) same]

/-- Whatever has happened in a session, the active document is open, and a pass that is the latest
when it takes its snapshot finds its document. A request for a pass is told that there is no active
document exactly if none is active or the session was shut down. Where it is answered with a number
its pass has sent before, once, the decorations of the document that was active, with that many
functions. Where it is answered without a number its pass has sent no decorations. -/
theorem recalculation_of_attained (attained : Attained s) :
    (∀ uri, s.scheduler.active = some uri → ∃ d, s.store.get? uri = some d) ∧
      (∀ p ∈ s.passes, p.progress = .begun → p.generation = s.scheduler.generation →
        ∃ d, s.store.get? p.uri = some d ∧
          s.takeSnapshot p.generation = s.setProgress p.generation (.measuring d)) ∧
      ∀ (now request : Nat) (since : List Step),
        (.message Outcome.noDocument.message ∈ s.recalculation now request since ↔
          s.scheduler.active = none ∨ s.scheduler.closed = true) ∧
        (∀ n, .counted request (some n) ∈ s.recalculation now request since →
          ∃ uri d, s.scheduler.active = some uri ∧ s.store.get? uri = some d ∧
            (s.provider.measure d).length = n ∧
            s.recalculation now request since =
              .decorations ⟨uri, d.version,
                Decorations.ofMetrics s.config (s.provider.measure d)⟩ ::
                (s.wishes ++ [.message (Outcome.published n).message,
                  .counted request (some n)])) ∧
        (.counted request none ∈ s.recalculation now request since →
          ∀ notice, .decorations notice ∉ s.recalculation now request since) := by
  have anchored := attained.anchored
  refine ⟨anchored.opened, ?_, ?_⟩
  · intro p member begun latest
    obtain ⟨d, stored⟩ := anchored.opened p.uri (anchored.active_of_latest member latest)
    exact ⟨d, stored, takeSnapshot_of_begun (anchored.pass?_eq_some member) begun stored⟩
  · intro now request since
    by_cases idle : s.scheduler.active = none ∨ s.scheduler.closed = true
    · rw [recalculation_of_refused idle]
      simp [idle]
    · obtain ⟨uri, active⟩ := Option.ne_none_iff_exists'.mp fun none => idle (.inl none)
      obtain ⟨d, stored⟩ := anchored.opened uri active
      obtain none | superseded | published :=
        anchored.recalculation_cases active stored now request since
      · rw [none]
        simp [idle]
      · rw [superseded]
        simp [idle, Outcome.message_superseded_ne.symm]
      · rw [published]
        refine ⟨⟨?_, fun refused => absurd refused idle⟩, ?_, ?_⟩
        · intro member
          have same := mem_publication member
          simp [(Outcome.message_published_ne _).symm] at same
        · intro n member
          have same := mem_publication member
          simp only [reduceCtorEq, false_or, Outgoing.counted.injEq, true_and,
            Option.some.injEq] at same
          subst same
          exact ⟨uri, d, active, stored, rfl, rfl⟩
        · intro member
          have same := mem_publication member
          simp at same

/-- A pass of the draft is measuring. -/
def busyDraft : Session :=
  (initial oneFunction .default true).follow
    [.move (.event (.opened 0 draft)), .move (.event (.fired 250)), .move (.event (.snapped 2))]

/-- The pass under way ends, outdated by a request; the draft changes again when the pass of the
request has been approved. -/
def afterRequest : List Step :=
  [.move (.event (.finished 2)), .move (.measured 3), .checked 3,
    .move (.event (.changed 310 draft.uri [⟨none, "ab"⟩] 2)), .stored 3, .announced 3]

theorem recalculation_of_attained_draft :
    .message Outcome.noDocument.message ∉ busyDraft.recalculation 300 7 afterRequest ∧
      ∃ uri d, busyDraft.scheduler.active = some uri ∧ busyDraft.store.get? uri = some d ∧
        (busyDraft.provider.measure d).length = 1 ∧
        busyDraft.recalculation 300 7 afterRequest =
          .decorations ⟨uri, d.version,
            Decorations.ofMetrics busyDraft.config (busyDraft.provider.measure d)⟩ ::
            (busyDraft.wishes ++ [.message (Outcome.published 1).message,
              .counted 7 (some 1)]) := by
  have attained : Attained busyDraft := ⟨_, _, _, _, rfl⟩
  obtain ⟨refused, answered, -⟩ :=
    (recalculation_of_attained attained).2.2 300 7 afterRequest
  exact ⟨mt refused.mp (by decide), answered 1 (by decide)⟩

end Session

end FunctionMeter
