import FunctionMeter.Proofs.Session.Moves
import Mathlib

/-!
# Decorations are up to date when they are sent

A pass works on a snapshot and publishes much later. Whatever happens in between, the snapshot of
the latest pass is the document as it stands: everything that changes the active document, or makes
another one active, takes a new generation. Changes to other documents do not, so that they leave
the latest pass alone.

The invariant `Fresh` says this for every pass that has its snapshot. Publication is one move here.
-/

namespace FunctionMeter.Session

variable {s s' : Session} {p : Pass} {g : Nat} {uri : Uri} {arrival : Option Uri}

/-! ## Snapshots of the latest pass -/

/-- A pass that has its snapshot holds only what this snapshot gives. If the pass is still the
latest, the snapshot is the document as it stands. -/
def Based (s : Session) (p : Pass) : Prop :=
  p.progress = .begun ∨
    ∃ d, (p.progress = .measuring d ∨ p.progress = .measured d.version (s.provider.measure d)) ∧
      (p.generation = s.scheduler.generation → s.store.get? p.uri = some d)

/-- No pass is in the middle of its publication, and each is based on its snapshot. -/
structure Fresh (s : Session) : Prop where
  anchored : Anchored s
  based : ∀ p ∈ s.passes, s.Based p

theorem fresh_initial (provider : Provider) (config : Config) (refreshes : Bool) :
    Fresh (initial provider config refreshes) :=
  ⟨anchored_initial provider config refreshes, fun _ member => absurd member List.not_mem_nil⟩

theorem Based.keep (h : s.Based p) (provider : s'.provider = s.provider)
    (kept : p.generation = s'.scheduler.generation →
      p.generation = s.scheduler.generation ∧ s'.store.get? p.uri = s.store.get? p.uri) :
    s'.Based p := by
  rcases h with begun | ⟨d, holds, stored⟩
  · exact .inl begun
  · refine .inr ⟨d, provider ▸ holds, ?_⟩
    intro latest
    obtain ⟨before, same⟩ := kept latest
    exact same.trans (stored before)

/-- A pass that is the latest now has been so all the time. -/
theorem Anchored.latest_before (h : Anchored s) (effect : Effect arrival s s')
    (member : p ∈ s.passes) (latest : p.generation = s'.scheduler.generation) :
    p.generation = s.scheduler.generation ∧
      s'.scheduler.generation = s.scheduler.generation := by
  have bound : p.generation ≤ s.scheduler.generation := h.sound.bound _ (mem_system member)
  have later : s.scheduler.generation ≤ s'.scheduler.generation := effect.evolves.generation_le
  omega

namespace Fresh

theorem effect (h : Fresh s) (effect : Effect arrival s s') : Fresh s' := by
  refine ⟨h.anchored.effect effect, ?_⟩
  have before := fun p member latest => h.anchored.latest_before (p := p) effect member latest
  cases effect with
  | handled handled =>
      intro p member
      rw [handled.passes] at member
      refine (h.based p member).keep handled.provider fun latest => ?_
      obtain ⟨own, same⟩ := before p member latest
      exact ⟨own, handled.kept same p.uri (h.anchored.active_of_latest member own)⟩
  | begun evolves active begun =>
      intro p member
      rcases List.mem_append.mp member with old | new
      · exact (h.based p old).keep rfl fun latest => ⟨(before p old latest).1, rfl⟩
      · rw [List.mem_singleton.mp new]
        exact .inl begun
  | @snapped p d member begun stored =>
      intro q inside
      rcases mem_setProgress inside with ⟨old, -⟩ | ⟨q', old, same, rfl⟩
      · exact h.based q old
      · obtain rfl := eq_of_generation h.anchored.sound.distinct member old same
        exact .inr ⟨d, .inl rfl, fun _ => stored⟩
  | @measured p d member busy =>
      intro q inside
      rcases mem_setProgress inside with ⟨old, -⟩ | ⟨q', old, same, rfl⟩
      · exact h.based q old
      · obtain rfl := eq_of_generation h.anchored.sound.distinct member old same
        rcases h.based _ member with begun | ⟨e, early | late, stored⟩
        · cases busy.symm.trans begun
        · cases busy.symm.trans early
          exact .inr ⟨d, .inr rfl, stored⟩
        · cases busy.symm.trans late
  | ended quiet fewer =>
      intro p member
      have inside := fewer.subset member
      exact (h.based p inside).keep rfl fun latest => ⟨(before p inside latest).1, rfl⟩

theorem effects (h : Fresh s) (effects : Effects arrival s s') : Fresh s' := by
  induction effects with
  | refl => exact h
  | tail _ effect ih => exact ih.effect effect

/-! ## What a publication is -/

/-- A pass that is to publish goes without a word, unless it is the latest. Then it tells the editor
what the document as it stands gives. -/
theorem publish_cases (h : Fresh s) (g : Nat) :
    Effects none s (s.publish g) ∧ (s.publish g).labels = s.labels ∨
      g = s.scheduler.generation ∧ ∃ uri d labels answers, s.scheduler.active = some uri ∧
        s.store.get? uri = some d ∧ Outgoing.Plain answers ∧
        s.publish g = { s.erasePass g with
          labels
          sent := s.sent ++ .decorations ⟨uri, d.version,
            Decorations.ofMetrics s.config (s.provider.measure d)⟩ :: answers } := by
  cases found : s.pass? g with
  | none =>
      rw [publish_of_none found]
      exact .inl ⟨.refl, rfl⟩
  | some p =>
      have member := mem_of_pass? found
      obtain rfl := generation_of_pass? found
      rcases h.based p member with begun | ⟨d, busy | measured, stored⟩
      · rw [publish_of_unmeasured found (.inl begun)]
        exact .inl ⟨.refl, rfl⟩
      · rw [publish_of_unmeasured found (.inr ⟨d, busy⟩)]
        exact .inl ⟨.refl, rfl⟩
      · by_cases latest : s.scheduler.generation = p.generation
        · obtain ⟨labels, answers, plain, published⟩ := publish_of_latest found measured latest
          exact .inr ⟨latest.symm, p.uri, d, labels, answers,
            h.anchored.active_of_latest member latest.symm, stored latest.symm, plain, published⟩
        · obtain ⟨answers, plain, dropped⟩ := publish_of_stale found measured latest
          rw [dropped]
          exact .inl ⟨.single (.ended (.inl rfl) List.filter_sublist plain), rfl⟩

theorem publish (h : Fresh s) (g : Nat) : Fresh (s.publish g) := by
  rcases h.publish_cases g with ⟨effects, -⟩ | ⟨-, uri, d, labels, answers, -, -, -, published⟩
  · exact h.effects effects
  · rw [published]
    refine ⟨⟨sound_erasePass h.anchored.sound g, h.anchored.opened⟩, ?_⟩
    intro p member
    exact h.based p (mem_erasePass.mp member).1

theorem finishMeasuring (h : Fresh s) (g : Nat) : Fresh (s.finishMeasuring g) :=
  h.effects (effects_finishMeasuring none s g)

theorem move (h : Fresh s) (m : Move) : Fresh (s.move m) := by
  cases publishes : m.publisher? with
  | none => exact h.effects (h.anchored.effects_move publishes)
  | some g =>
      rcases Move.eq_of_publisher? publishes with rfl | rfl
      · exact (h.finishMeasuring g).publish g
      · exact h.publish g

theorem play (h : Fresh s) (moves : List Move) : Fresh (s.play moves) := by
  induction moves generalizing s with
  | nil => exact h
  | cons m moves ih => exact ih (h.move m)

end Fresh

/-! ## What the editor is told -/

/-- From one session to the next the editor is told once what to draw for a document. The document
is active and open, and the decorations and the version are those of the document as it stands. -/
def Announces (s s' : Session) (uri : Uri) : Prop :=
  ∃ d, s.store.get? uri = some d ∧ s.scheduler.active = some uri ∧
    s'.notices uri = s.notices uri ++
      [⟨uri, d.version, Decorations.ofMetrics s.config (s.provider.measure d)⟩]

/-- From one session to the next nothing is published. -/
structure Silent (s s' : Session) : Prop where
  notices : ∀ uri, s'.notices uri = s.notices uri
  labels : s'.labels = s.labels

namespace Fresh

theorem notices_publish (h : Fresh s) (g : Nat) (uri : Uri) :
    (s.publish g).notices uri = s.notices uri ∨ Announces s (s.publish g) uri := by
  rcases h.publish_cases g with
    ⟨effects, -⟩ | ⟨-, active, d, labels, answers, turned, stored, plain, published⟩
  · exact .inl (effects.notices uri)
  · have told := notices_append_notice plain (congrArg sent published) uri
    split_ifs at told with same
    · subst same
      exact .inr ⟨d, stored, turned, told⟩
    · exact .inl (told.trans (List.append_nil _))

theorem notices_move (h : Fresh s) (m : Move) (uri : Uri) :
    (s.move m).notices uri = s.notices uri ∨ Announces s (s.move m) uri := by
  cases publishes : m.publisher? with
  | none => exact .inl ((h.anchored.effects_move publishes).notices uri)
  | some g =>
      rcases Move.eq_of_publisher? publishes with rfl | rfl
      · have told := (h.finishMeasuring g).notices_publish g uri
        obtain ⟨passes, measured⟩ := finishMeasuring_eq s g
        rw [Session.move, step, finish]
        rw [measured] at told ⊢
        exact told
      · exact h.notices_publish g uri

/-- A pass that is no longer the latest publishes nothing. -/
theorem silent_of_stale {m : Move} (h : Fresh s) (publishes : m.publisher? = some g)
    (stale : g ≠ s.scheduler.generation) : Silent s (s.move m) := by
  rcases Move.eq_of_publisher? publishes with rfl | rfl
  · have published := (h.finishMeasuring g).publish_cases g
    obtain ⟨passes, measured⟩ := finishMeasuring_eq s g
    rw [measured] at published
    rw [Session.move, step, finish, measured]
    rcases published with ⟨effects, labels⟩ | ⟨latest, -⟩
    · exact ⟨fun uri => effects.notices uri, labels⟩
    · exact absurd latest stale
  · rcases h.publish_cases g with ⟨effects, labels⟩ | ⟨latest, -⟩
    · exact ⟨fun uri => effects.notices uri, labels⟩
    · exact absurd latest stale

theorem generation_le_play (h : Fresh s) (moves : List Move) :
    s.scheduler.generation ≤ (s.play moves).scheduler.generation := by
  induction moves generalizing s with
  | nil => exact le_rfl
  | cons m moves ih =>
      have first := (h.anchored.course_advance (.move m)).generation_le
      exact first.trans (ih (h.move m))

end Fresh

/-! ## Passes that are outdated -/

/-- A move that outdates the passes of a document: the document is changed or closed, or any
document is opened or the focus moves. -/
def Move.Outdates (uri : Uri) : Move → Prop
  | .event (.opened ..) => True
  | .event (.focused ..) => True
  | .event (.changed _ changed _ _) => changed = uri
  | .event (.closed _ closed) => closed = uri
  | _ => False

theorem Move.Outdates.silent {m : Move} (outdates : m.Outdates uri) : m.publisher? = none := by
  cases m with
  | event event =>
      cases event with
      | finished generation => cases outdates
      | _ => rfl
  | published generation => cases outdates
  | _ => rfl

namespace Anchored

/-- What outdates the active document takes a new generation. -/
theorem renews {m : Move} (h : Anchored s) (active : s.scheduler.active = some uri)
    (outdates : m.Outdates uri) : s.scheduler.generation < (s.move m).scheduler.generation := by
  have serving := h.serving active
  cases m with
  | event event =>
      cases event with
      | opened now document => exact Scheduler.generation_turnTo now (some document.uri) serving
      | changed now changed changes version =>
          obtain rfl : changed = uri := outdates
          obtain ⟨d, found⟩ := h.opened changed active
          have later := Scheduler.generation_schedule now .edit serving active
          simpa only [Session.move, step, Session.changeDocument, Store.change?, found,
            Option.map_some, active, if_true] using later
      | closed now closed =>
          obtain rfl : closed = uri := outdates
          have later := Scheduler.generation_turnTo now none serving
          simpa only [Session.move, step, Session.closeDocument, eraseLabels, active, if_true]
            using later
      | focused now target =>
          simp only [Session.move, step, Session.changeFocus]
          split
          · exact Scheduler.generation_schedule now .focus serving active
          · exact Scheduler.generation_turnTo now _ serving
      | _ => cases outdates
  | _ => cases outdates

theorem outdated {m : Move} (h : Anchored s) (member : p ∈ s.passes)
    (outdates : m.Outdates p.uri) : p.generation < (s.move m).scheduler.generation := by
  have bound : p.generation ≤ s.scheduler.generation := h.sound.bound _ (mem_system member)
  by_cases latest : p.generation = s.scheduler.generation
  · rw [latest]
    exact h.renews (h.active_of_latest member latest) outdates
  · have later := (h.effects_move outdates.silent).course.generation_le
    omega

end Anchored

/-- The sessions that moves can lead to. -/
def Reached (s : Session) : Prop :=
  ∃ provider config refreshes history, s = (initial provider config refreshes).play history

theorem Reached.fresh (reached : Reached s) : Fresh s := by
  obtain ⟨provider, config, refreshes, history, rfl⟩ := reached
  exact (fresh_initial provider config refreshes).play history

/-- Whatever has happened in a session, decorations are sent only for the active document, with the
version and the metrics of this document as it stands. Once a pass under way is outdated it never
publishes, whatever happens until its turn comes. -/
theorem decorations_current (reached : Reached s) (m : Move) :
    (∀ uri, (s.move m).notices uri = s.notices uri ∨ Announces s (s.move m) uri) ∧
      ∀ p ∈ s.passes, m.Outdates p.uri →
        ∀ (since : List Move) (last : Move), last.publisher? = some p.generation →
          Silent ((s.move m).play since) (((s.move m).play since).move last) := by
  have fresh := reached.fresh
  refine ⟨fun uri => fresh.notices_move m uri, ?_⟩
  intro p member outdates since last publishes
  have older := fresh.anchored.outdated member outdates
  have still := (fresh.move m).generation_le_play since
  exact ((fresh.move m).play since).silent_of_stale publishes (older.trans_le still).ne

def note : Document := ⟨⟨"untitled", none, "note", none, none⟩, 1, "b"⟩

/-- The note is opened and then the draft, of which a pass takes a snapshot. -/
def draftAfterNote : Session :=
  (initial .silent .default true).play
    [.event (.opened 0 note), .event (.opened 10 draft), .event (.fired 260), .event (.snapped 4)]

theorem decorations_current_draft :
    Announces draftAfterNote (draftAfterNote.move (.event (.finished 4))) draft.uri ∧
      Silent ((draftAfterNote.move (.event (.focused 300 (some note.uri)))).play [.measured 4])
        (((draftAfterNote.move (.event (.focused 300 (some note.uri)))).play [.measured 4]).move
          (.published 4)) := by
  have reached : Reached draftAfterNote := ⟨_, _, _, _, rfl⟩
  refine ⟨?_, ?_⟩
  · have told := (decorations_current reached (.event (.finished 4))).1 draft.uri
    exact told.resolve_left (by decide)
  · exact (decorations_current reached (.event (.focused 300 (some note.uri)))).2
      { uri := draft.uri, generation := 4, began := 260, progress := .measuring draft } (by decide)
      trivial [.measured 4] (.published 4) rfl

/-- Whether a move is one of the editor's messages about its documents and its focus. -/
def Move.isChange : Move → Bool
  | .event (.opened ..) | .event (.changed ..) | .event (.closed ..) | .event (.focused ..) => true
  | _ => false

/-- It is not so that every such message outdates every pass: a change to the note leaves the pass
of the draft alone. -/
theorem changes_elsewhere_outdate_nothing :
    ¬ ∀ (s : Session), Reached s → ∀ p ∈ s.passes, (∃ d, p.progress = .measuring d) →
      ∀ m last : Move, m.isChange = true → last.publisher? = some p.generation →
        Silent (s.move m) ((s.move m).move last) := by
  intro outdated
  have silent := outdated draftAfterNote ⟨_, _, _, _, rfl⟩
    { uri := draft.uri, generation := 4, began := 260, progress := .measuring draft } (by decide)
    ⟨draft, rfl⟩ (.event (.changed 300 note.uri [⟨none, "bc"⟩] 2)) (.event (.finished 4)) rfl rfl
  exact absurd (silent.notices draft.uri) (by decide)

end FunctionMeter.Session
