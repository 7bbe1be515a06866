import FunctionMeter.Proofs.Session.Fresh
import Mathlib

/-!
# Closed documents stay cleared

When a document is closed its labels go, and nothing is drawn for it until it is opened again. This
holds even if passes are interrupted anywhere, since a pass can be approved only for the active
document, which is open. The one exception is a pass that was approved before the document was
closed and has not told the editor yet: nothing stops it any more.
-/

namespace FunctionMeter

/-- Whether a pass was approved and is still to tell the editor. -/
def Progress.isPublishing : Progress → Bool
  | .approved .. | .labelled .. => true
  | .begun | .measuring _ | .measured .. => false

namespace Session

variable {s s' : Session} {p : Pass} {uri : Uri} {arrival : Option Uri}

/-- No pass of a document is between its approval and its end. -/
def Unpublished (s : Session) (uri : Uri) : Prop :=
  ∀ p ∈ s.passes, p.uri = uri → p.progress.isPublishing = false

/-- A document is not open, has no labels, and none of its passes can publish. -/
structure Cleared (s : Session) (uri : Uri) : Prop where
  absent : s.store.get? uri = none
  unlabelled : s.labels? uri = none
  unpublished : s.Unpublished uri

theorem Unpublished.elsewhere (h : s.Unpublished uri) (member : p ∈ s.passes)
    (publishing : p.progress.isPublishing = true) : p.uri ≠ uri := by
  intro named
  exact absurd (publishing.symm.trans (h p member named)) nofun

theorem Unpublished.setProgress {g : Nat} {progress : Progress} (h : s.Unpublished uri)
    (idle : ∀ p ∈ s.passes, p.generation = g → p.uri = uri → progress.isPublishing = false) :
    (s.setProgress g progress).Unpublished uri := by
  intro q member named
  rcases mem_setProgress member with ⟨old, -⟩ | ⟨p, old, same, rfl⟩
  · exact h q old named
  · exact idle p old same named

namespace Cleared

theorem effect (h : Cleared s uri) (effect : Effect arrival s s') (elsewhere : arrival ≠ some uri) :
    Cleared s' uri := by
  cases effect with
  | handled handled =>
      refine ⟨handled.absent uri elsewhere h.absent, handled.unlabelled uri h.unlabelled, ?_⟩
      rw [Unpublished, handled.passes]
      exact h.unpublished
  | begun evolves active begun =>
      refine ⟨h.absent, h.unlabelled, ?_⟩
      intro p member named
      rcases List.mem_append.mp member with old | new
      · exact h.unpublished p old named
      · rw [List.mem_singleton.mp new, begun]
        rfl
  | snapped member =>
      exact ⟨h.absent, h.unlabelled, h.unpublished.setProgress fun _ _ _ _ => rfl⟩
  | measured member =>
      exact ⟨h.absent, h.unlabelled, h.unpublished.setProgress fun _ _ _ _ => rfl⟩
  | ended quiet fewer =>
      exact ⟨h.absent, h.unlabelled, fun p member => h.unpublished p (fewer.subset member)⟩

/-- The pass that publishes is one of another document. -/
theorem stage (h : Cleared s uri) (anchored : Anchored s) (stage : Stage s s') :
    Cleared s' uri ∧ s'.notices uri = s.notices uri := by
  cases stage with
  | @approved p version metrics member measured latest =>
      refine ⟨⟨h.absent, h.unlabelled, h.unpublished.setProgress ?_⟩, rfl⟩
      intro q inside same named
      obtain rfl := eq_of_generation anchored.sound.distinct member inside same
      obtain ⟨d, opened⟩ := anchored.opened q.uri (anchored.active_of_latest member latest)
      rw [named, h.absent] at opened
      cases opened
  | @labelled p version metrics labels member approved elsewhere =>
      have other : p.uri ≠ uri := h.unpublished.elsewhere member (approved ▸ rfl)
      refine ⟨⟨h.absent, (elsewhere uri other.symm).trans h.unlabelled, ?_⟩, rfl⟩
      refine Unpublished.setProgress (s := { s with labels }) h.unpublished ?_
      intro q inside same named
      obtain rfl := eq_of_generation anchored.sound.distinct member inside same
      exact absurd named other
  | @announced p version metrics decorations answers member labelled plain =>
      have other : p.uri ≠ uri := h.unpublished.elsewhere member (labelled ▸ rfl)
      refine ⟨⟨h.absent, h.unlabelled, ?_⟩, ?_⟩
      · exact fun q inside => h.unpublished q (mem_erasePass.mp inside).1
      · rw [notices_append_notice plain rfl uri, if_neg other, List.append_nil]

/-- What is cleared stays so until it is opened, and the editor hears nothing of it. -/
theorem course (h : Cleared s uri) (anchored : Anchored s) (course : Course arrival s s')
    (elsewhere : arrival ≠ some uri) : Cleared s' uri ∧ s'.notices uri = s.notices uri := by
  induction course with
  | refl => exact ⟨h, rfl⟩
  | tail before next ih =>
      obtain ⟨cleared, same⟩ := ih
      rcases next with effect | stage
      · exact ⟨cleared.effect effect elsewhere, (effect.notices uri).trans same⟩
      · obtain ⟨kept, unheard⟩ := cleared.stage (anchored.course before) stage
        exact ⟨kept, unheard.trans same⟩

theorem follow (h : Cleared s uri) (anchored : Anchored s) (steps : List Step)
    (elsewhere : ∀ step ∈ steps, step.arrival? ≠ some uri) :
    Cleared (s.follow steps) uri ∧ (s.follow steps).notices uri = s.notices uri := by
  induction steps generalizing s with
  | nil => exact ⟨h, rfl⟩
  | cons step steps ih =>
      have course := anchored.course_advance step
      obtain ⟨cleared, same⟩ := h.course anchored course (elsewhere step List.mem_cons_self)
      obtain ⟨kept, unheard⟩ := ih cleared (anchored.course course) fun next member =>
        elsewhere next (List.mem_cons_of_mem step member)
      exact ⟨kept, unheard.trans same⟩

theorem hints?_eq_none (h : Cleared s uri) (range : Range) : s.hints? uri range = none := by
  rw [hints?, h.unlabelled, Option.map_none]

end Cleared

theorem Unpublished.cleared (h : s.Unpublished uri) (now : Nat) :
    Cleared (s.closeDocument now uri) uri := by
  have absent := Store.get?_erase_self s.store uri
  have unlabelled := labels?_eraseLabels_self s uri
  rw [closeDocument]
  split
  · exact ⟨absent, unlabelled, h⟩
  · exact ⟨absent, unlabelled, h⟩

theorem Anchored.closes (h : Anchored s) (unpublished : s.Unpublished uri) (now : Nat)
    (since : List Step) (elsewhere : ∀ step ∈ since, step.arrival? ≠ some uri) :
    ((s.closeDocument now uri).follow since).notices uri = s.notices uri ∧
      ∀ range, ((s.closeDocument now uri).follow since).hints? uri range = none := by
  have closing := Effect.handled (h.closeDocument now uri)
  obtain ⟨cleared, same⟩ := (unpublished.cleared now).follow (h.effect closing) since elsewhere
  exact ⟨same.trans (closing.notices uri), fun range => cleared.hints?_eq_none range⟩

/-- After a document is closed and until it is opened again, the editor is told nothing to draw for
it and gets no hints, provided that no pass of it was approved and had yet to tell the editor. -/
theorem closed_stays_cleared (provider : Provider) (config : Config) (refreshes : Bool)
    (history : List Step) (now : Nat) (since : List Step)
    (unpublished : ((initial provider config refreshes).follow history).Unpublished uri)
    (elsewhere : ∀ step ∈ since, step.arrival? ≠ some uri) :
    ((((initial provider config refreshes).follow history).closeDocument now uri).follow
        since).notices uri = ((initial provider config refreshes).follow history).notices uri ∧
      ∀ range, ((((initial provider config refreshes).follow history).closeDocument now uri).follow
        since).hints? uri range = none :=
  ((anchored_initial provider config refreshes).follow history).closes unpublished now since
    elsewhere

theorem Fresh.unpublished (h : Fresh s) (uri : Uri) : s.Unpublished uri := by
  intro p member _
  rcases h.based p member with begun | ⟨d, busy | measured, -⟩
  · rw [begun, Progress.isPublishing]
  · rw [busy, Progress.isPublishing]
  · rw [measured, Progress.isPublishing]

/-- Where passes publish in one move, a closed document is cleared whatever passes are under way. -/
theorem Reached.closed_stays_cleared (reached : Reached s) (now : Nat) (since : List Move)
    (elsewhere : ∀ m ∈ since, m.arrival? ≠ some uri) :
    ((s.closeDocument now uri).play since).notices uri = s.notices uri ∧
      ∀ range, ((s.closeDocument now uri).play since).hints? uri range = none := by
  have same : (s.closeDocument now uri).play since =
      (s.closeDocument now uri).follow (since.map .move) := by
    rw [play, follow, List.foldl_map]
    rfl
  rw [same]
  refine reached.fresh.anchored.closes (reached.fresh.unpublished uri) now _ ?_
  intro step member
  obtain ⟨m, inside, rfl⟩ := List.mem_map.mp member
  exact elsewhere m inside

/-- One function on the first line of every document. -/
def oneFunction : Provider :=
  .fixed [⟨"f", .function, ⟨⟨0, 0⟩, ⟨0, 1⟩⟩, ⟨⟨0, 0⟩, ⟨0, 1⟩⟩, []⟩]

/-- The draft is measured and the pass is found to be the latest. -/
def approvedDraft : Session :=
  (initial oneFunction .default true).follow
    [.move (.event (.opened 0 draft)), .move (.event (.fired 250)), .move (.event (.snapped 2)),
      .move (.measured 2), .checked 2]

/-- Closing does not stop an approved pass: it draws the closed draft, and hints for it stay. -/
theorem approved_outlives_closing :
    ((approvedDraft.closeDocument 300 draft.uri).follow
        [.stored 2, .announced 2]).notices draft.uri ≠ approvedDraft.notices draft.uri ∧
      ((approvedDraft.closeDocument 300 draft.uri).follow
        [.stored 2, .announced 2]).hints? draft.uri ⟨⟨0, 0⟩, ⟨1, 0⟩⟩ ≠ none :=
  ⟨by decide, by decide⟩

end Session

end FunctionMeter
