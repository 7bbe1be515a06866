import FunctionMeter.Proofs.Session.Moves
import Mathlib

/-!
# The acts of a pass

A pass goes through its acts in a fixed order, and how far it has come says which act is next; every
other act leaves the session as it is. This module says exactly what each act does, including what
it sends, and that it leaves other passes alone. Steps of a session that are not acts of a pass
begin passes or call them off, but move none of them on.
-/

namespace FunctionMeter

/-- The acts of which the course of a pass is made. -/
inductive Act where
  | snap
  | measure
  | check
  | store
  | announce
  deriving DecidableEq

/-- The act that a pass comes to next. -/
def Progress.next : Progress → Act
  | .begun => .snap
  | .measuring _ => .measure
  | .measured .. => .check
  | .approved .. => .store
  | .labelled .. => .announce

/-- The next act of a pass tells how far it has come, but for what it holds. -/
theorem Progress.eq_of_next (progress : Progress) :
    match progress.next with
    | .snap => progress = .begun
    | .measure => ∃ d, progress = .measuring d
    | .check => ∃ version metrics, progress = .measured version metrics
    | .store => ∃ version metrics, progress = .approved version metrics
    | .announce => ∃ version metrics decorations,
        progress = .labelled version metrics decorations := by
  cases progress with
  | begun => rfl
  | measuring d => exact ⟨d, rfl⟩
  | measured version metrics => exact ⟨version, metrics, rfl⟩
  | approved version metrics => exact ⟨version, metrics, rfl⟩
  | labelled version metrics decorations => exact ⟨version, metrics, decorations, rfl⟩

namespace Session

variable {s s' : Session} {p : Pass} {g : Nat}

def act (s : Session) (g : Nat) : Act → Session
  | .snap => s.takeSnapshot g
  | .measure => s.finishMeasuring g
  | .check => s.checkLatest g
  | .store => s.storeLabels g
  | .announce => s.announce g

/-! ## What each act does -/

theorem act_of_none (absent : s.pass? g = none) (a : Act) : s.act g a = s := by
  cases a with
  | snap => exact takeSnapshot_of_none absent
  | measure => simp only [act, finishMeasuring, absent]
  | check => simp only [act, checkLatest, absent]
  | store => exact storeLabels_of_none absent
  | announce => exact announce_of_none absent

/-- An act does nothing before its turn and after it. -/
theorem act_of_ne {a : Act} (found : s.pass? g = some p) (turn : p.progress.next ≠ a) :
    s.act g a = s := by
  cases reached : p.progress <;> rw [reached, Progress.next] at turn <;>
    cases a <;>
    first
    | exact absurd rfl turn
    | simp only [act, takeSnapshot, finishMeasuring, checkLatest, storeLabels, announce, found,
        reached]

/-! ## What acts leave alone -/

/-- What no step changes. -/
structure SameService (s s' : Session) : Prop where
  provider : s'.provider = s.provider
  config : s'.config = s.config
  refreshes : s'.refreshes = s.refreshes

theorem SameService.refl (s : Session) : SameService s s := ⟨rfl, rfl, rfl⟩

theorem SameService.trans {s'' : Session} (h : SameService s s') (h' : SameService s' s'') :
    SameService s s'' :=
  ⟨h'.provider.trans h.provider, h'.config.trans h.config, h'.refreshes.trans h.refreshes⟩

theorem pass?_setProgress_of_ne {other : Nat} (s : Session) (progress : Progress)
    (different : other ≠ g) : (s.setProgress g progress).pass? other = s.pass? other := by
  rw [pass?_setProgress_eq_map]
  cases found : s.pass? other with
  | none => rfl
  | some p =>
      have own := generation_of_pass? found
      rw [Option.map_some, if_neg (own ▸ different)]

theorem pass?_erasePass_of_ne {other : Nat} (s : Session) (different : other ≠ g) :
    (s.erasePass g).pass? other = s.pass? other := by
  rw [pass?, erasePass, List.find?_filter, pass?]
  congr 1
  funext q
  by_cases same : q.generation = other
  · simp [same, different]
  · simp [same]

/-- What an act of the pass of a generation leaves alone. -/
structure Acted (g : Nat) (s s' : Session) : Prop where
  service : SameService s s'
  scheduler : s'.scheduler = s.scheduler
  store : s'.store = s.store
  others : ∀ other, other ≠ g → s'.pass? other = s.pass? other

theorem Acted.refl (s : Session) : Acted g s s := ⟨.refl s, rfl, rfl, fun _ _ => rfl⟩

theorem Acted.trans {s'' : Session} (h : Acted g s s') (h' : Acted g s' s'') : Acted g s s'' :=
  ⟨h.service.trans h'.service, h'.scheduler.trans h.scheduler, h'.store.trans h.store,
    fun other different => (h'.others other different).trans (h.others other different)⟩

theorem acted_setProgress (s : Session) (g : Nat) (progress : Progress) :
    Acted g s (s.setProgress g progress) :=
  ⟨⟨rfl, rfl, rfl⟩, rfl, rfl, fun _ different => pass?_setProgress_of_ne s progress different⟩

theorem acted_ended (s : Session) (g : Nat) (sent : List Outgoing) :
    Acted g s { s.erasePass g with sent } :=
  ⟨⟨rfl, rfl, rfl⟩, rfl, rfl, fun _ different => pass?_erasePass_of_ne s different⟩

theorem acted_setLabels (s : Session) (g : Nat) (uri : Uri) (decorations : Decorations) :
    Acted g s (s.setLabels uri decorations) :=
  ⟨⟨rfl, rfl, rfl⟩, rfl, rfl, fun _ _ => rfl⟩

/-! ## What a pass does in its turn -/

/-- What a pass can do when its turn comes, with what it sends then. -/
inductive Deed (s : Session) (p : Pass) : List Outgoing → Session → Prop
  | snapped {d : Document} (begun : p.progress = .begun) (stored : s.store.get? p.uri = some d) :
      Deed s p [] (s.setProgress p.generation (.measuring d))
  | unfound (begun : p.progress = .begun) (absent : s.store.get? p.uri = none) :
      Deed s p (p.replies .noDocument)
        { s.erasePass p.generation with sent := s.sent ++ p.replies .noDocument }
  | measured {d : Document} (busy : p.progress = .measuring d) :
      Deed s p [] (s.setProgress p.generation (.measured d.version (s.provider.measure d)))
  | approved {version : Int32} {metrics : List Metric}
      (measured : p.progress = .measured version metrics)
      (latest : s.scheduler.generation = p.generation) :
      Deed s p [] (s.setProgress p.generation (.approved version metrics))
  | superseded {version : Int32} {metrics : List Metric}
      (measured : p.progress = .measured version metrics)
      (stale : s.scheduler.generation ≠ p.generation) :
      Deed s p (p.replies .superseded)
        { s.erasePass p.generation with sent := s.sent ++ p.replies .superseded }
  | labelled {version : Int32} {metrics : List Metric}
      (approved : p.progress = .approved version metrics) :
      Deed s p [] ((s.setLabels p.uri (Decorations.ofMetrics s.config metrics)).setProgress
        p.generation (.labelled version metrics (Decorations.ofMetrics s.config metrics)))
  | announced {version : Int32} {metrics : List Metric} {decorations : Decorations}
      (labelled : p.progress = .labelled version metrics decorations) :
      Deed s p
        (.decorations ⟨p.uri, version, decorations⟩ ::
          (s.wishes ++ p.replies (.published metrics.length)))
        { s.erasePass p.generation with
          sent := s.sent ++ .decorations ⟨p.uri, version, decorations⟩ ::
            (s.wishes ++ p.replies (.published metrics.length)) }

theorem deed_act (found : s.pass? g = some p) : ∃ out, Deed s p out (s.act g p.progress.next) := by
  obtain rfl := generation_of_pass? found
  cases reached : p.progress with
  | begun =>
      cases stored : s.store.get? p.uri with
      | none =>
          rw [Progress.next, act, takeSnapshot_of_closed found reached stored, conclude_eq_replies]
          exact ⟨_, .unfound reached stored⟩
      | some d =>
          rw [Progress.next, act, takeSnapshot_of_begun found reached stored]
          exact ⟨_, .snapped reached stored⟩
  | measuring d =>
      rw [Progress.next, act, finishMeasuring_of_measuring found reached]
      exact ⟨_, .measured reached⟩
  | measured version metrics =>
      by_cases latest : s.scheduler.generation = p.generation
      · rw [Progress.next, act, checkLatest_of_latest found reached latest]
        exact ⟨_, .approved reached latest⟩
      · rw [Progress.next, act, checkLatest_of_stale found reached latest, conclude_eq_replies]
        exact ⟨_, .superseded reached latest⟩
  | approved version metrics =>
      rw [Progress.next, act, storeLabels_eq found reached]
      exact ⟨_, .labelled reached⟩
  | labelled version metrics decorations =>
      rw [Progress.next, act, announce_eq found reached]
      exact ⟨_, .announced reached⟩

theorem Deed.acted {out : List Outgoing} (deed : Deed s p out s') : Acted p.generation s s' := by
  cases deed with
  | snapped => exact acted_setProgress s _ _
  | unfound => exact acted_ended s _ _
  | measured => exact acted_setProgress s _ _
  | approved => exact acted_setProgress s _ _
  | superseded => exact acted_ended s _ _
  | labelled => exact (acted_setLabels s _ p.uri _).trans (acted_setProgress _ _ _)
  | announced => exact acted_ended s _ _

theorem Deed.sent {out : List Outgoing} (deed : Deed s p out s') : s'.sent = s.sent ++ out := by
  cases deed with
  | unfound => rfl
  | superseded => rfl
  | announced => rfl
  | _ => exact (List.append_nil _).symm

/-- An act is what the pass does in its turn, or nothing. -/
theorem act_cases (s : Session) (g : Nat) (a : Act) :
    s.act g a = s ∨ ∃ p out, s.pass? g = some p ∧ Deed s p out (s.act g a) := by
  cases found : s.pass? g with
  | none => exact .inl (act_of_none found a)
  | some p =>
      by_cases turn : p.progress.next = a
      · obtain ⟨out, deed⟩ := deed_act found
        exact .inr ⟨p, out, rfl, turn ▸ deed⟩
      · exact .inl (act_of_ne found turn)

theorem acted_act (s : Session) (g : Nat) (a : Act) : Acted g s (s.act g a) := by
  rcases act_cases s g a with idle | ⟨p, out, found, deed⟩
  · rw [idle]
    exact .refl s
  · exact generation_of_pass? found ▸ deed.acted

theorem Anchored.act (h : Anchored s) (g : Nat) (a : Act) : Anchored (s.act g a) := by
  cases a with
  | snap => exact h.course (effects_takeSnapshot none s g).course
  | measure => exact h.course (effects_finishMeasuring none s g).course
  | check => exact h.course (course_checkLatest none s g)
  | store => exact h.course (course_storeLabels none s g)
  | announce => exact h.course (course_announce none s g)

/-! ## Steps that are acts -/

/-- The acts of a step, and the generation of their pass. -/
def Step.acts? : Step → Option (Nat × List Act)
  | .move (.event (.snapped g)) => some (g, [.snap])
  | .move (.event (.finished g)) => some (g, [.measure, .check, .store, .announce])
  | .move (.measured g) => some (g, [.measure])
  | .move (.published g) => some (g, [.check, .store, .announce])
  | .checked g => some (g, [.check])
  | .stored g => some (g, [.store])
  | .announced g => some (g, [.announce])
  | .move _ => none

theorem advance_of_acts {step : Step} {acts : List Act} (made : step.acts? = some (g, acts)) :
    s.advance step = acts.foldl (fun s a => s.act g a) s := by
  cases step with
  | move move =>
      cases move with
      | event event => cases event <;> cases made <;> rfl
      | _ => cases made <;> rfl
  | _ =>
      cases made
      rfl

end Session

end FunctionMeter
