import FunctionMeter.Proofs.Session.Recalculate
import Mathlib

/-!
# Documents do not interfere

Two runs in which the same things happen, but for what a document holds each time it is opened or
changed, look the same from every other document. The two sessions stay `Alike`: they have the same
scheduler, the same documents open and passes that have come equally far, and they agree on
everything about other documents. What they send differs at most where a pass of the one document
tells the editor about it.
-/

namespace FunctionMeter

/-- Two passes that differ at most in what they hold of a document. -/
structure AlikePass (v : Uri) (p q : Pass) : Prop where
  uri : q.uri = p.uri
  generation : q.generation = p.generation
  began : q.began = p.began
  request : q.request = p.request
  next : q.progress.next = p.progress.next
  elsewhere : p.uri ≠ v → q = p

theorem AlikePass.refl (v : Uri) (p : Pass) : AlikePass v p p :=
  ⟨rfl, rfl, rfl, rfl, rfl, fun _ => rfl⟩

/-- Two stores that differ at most in what they hold of a document. -/
structure AlikeStores (v : Uri) (a b : Store) : Prop where
  elsewhere : ∀ u, u ≠ v → b.get? u = a.get? u
  present : (b.get? v).isSome = (a.get? v).isSome

namespace AlikeStores

variable {v : Uri} {a b : Store}

theorem isSome (h : AlikeStores v a b) (u : Uri) : (b.get? u).isSome = (a.get? u).isSome := by
  by_cases same : u = v
  · rw [same, h.present]
  · rw [h.elsewhere u same]

theorem get?_cases (h : AlikeStores v a b) (u : Uri) :
    a.get? u = none ∧ b.get? u = none ∨
      ∃ d e, a.get? u = some d ∧ b.get? u = some e ∧ (u ≠ v → e = d) := by
  have present := h.isSome u
  cases found : a.get? u with
  | none =>
      rw [found, Option.isSome_none, Option.isSome_eq_false_iff,
        Option.isNone_iff_eq_none] at present
      exact .inl ⟨rfl, present⟩
  | some d =>
      rw [found, Option.isSome_some, Option.isSome_iff_exists] at present
      obtain ⟨e, found'⟩ := present
      refine .inr ⟨d, e, rfl, found', ?_⟩
      intro different
      rw [h.elsewhere u different, found] at found'
      exact (Option.some.inj found').symm

theorem insert {d e : Document} (h : AlikeStores v a b) (named : e.uri = d.uri)
    (same : d.uri ≠ v → e = d) : AlikeStores v (a.insert d) (b.insert e) := by
  constructor
  · intro u different
    by_cases own : d.uri = u
    · subst own
      obtain rfl := same different
      rw [Store.get?_insert_self, Store.get?_insert_self]
    · rw [Store.get?_insert_of_ne a own, Store.get?_insert_of_ne b (named ▸ own)]
      exact h.elsewhere u different
  · by_cases own : d.uri = v
    · subst own
      have put := Store.get?_insert_self b e
      rw [named] at put
      rw [put, Store.get?_insert_self]
      rfl
    · rw [Store.get?_insert_of_ne a own, Store.get?_insert_of_ne b (named ▸ own)]
      exact h.present

theorem erase (h : AlikeStores v a b) (uri : Uri) : AlikeStores v (a.erase uri) (b.erase uri) := by
  constructor
  · intro u different
    by_cases own : u = uri
    · rw [own, Store.get?_erase_self, Store.get?_erase_self]
    · rw [Store.get?_erase_of_ne a own, Store.get?_erase_of_ne b own, h.elsewhere u different]
  · by_cases own : v = uri
    · rw [own, Store.get?_erase_self, Store.get?_erase_self]
    · rw [Store.get?_erase_of_ne a own, Store.get?_erase_of_ne b own, h.present]

end AlikeStores

namespace Session

variable {v : Uri} {s t s' t' : Session} {p q : Pass} {g : Nat}

/-- Two sessions that differ at most in what they hold of a document, and have sent the editor the
same about every other one. -/
structure Alike (v : Uri) (s t : Session) : Prop where
  service : SameService s t
  scheduler : t.scheduler = s.scheduler
  store : AlikeStores v s.store t.store
  labels : ∀ u, u ≠ v → t.labels? u = s.labels? u
  passes : List.Forall₂ (AlikePass v) s.passes t.passes
  notices : ∀ u, u ≠ v → t.notices u = s.notices u

/-! ## Runs that differ in the contents of a document -/

/-- Two moves are the same, or both open a document or change it, with whatever they bring. -/
inductive Move.SameBut (v : Uri) : Move → Move → Prop
  | same (m : Move) : SameBut v m m
  | opened (now : Nat) {d e : Document} (named : d.uri = v) (named' : e.uri = v) :
      SameBut v (.event (.opened now d)) (.event (.opened now e))
  | changed (now : Nat) (changes changes' : List Change) (version version' : Int32) :
      SameBut v (.event (.changed now v changes version))
        (.event (.changed now v changes' version'))

inductive Step.SameBut (v : Uri) : Step → Step → Prop
  | same (step : Step) : SameBut v step step
  | move {m m' : Move} (h : m.SameBut v m') : SameBut v (.move m) (.move m')

namespace Step.SameBut

variable {step step' : Step}

theorem eq_of_acts {acting : Nat × List Act} (same : step.SameBut v step')
    (made : step.acts? = some acting) : step' = step := by
  cases same with
  | same => rfl
  | move h =>
      cases h with
      | same => rfl
      | opened => cases made
      | changed => cases made

theorem exists_move (same : step.SameBut v step') (inert : step.acts? = none) :
    ∃ m m', step = .move m ∧ step' = .move m' ∧ m.SameBut v m' := by
  cases same with
  | same =>
      cases step with
      | move m => exact ⟨m, m, rfl, rfl, .same m⟩
      | _ => cases inert
  | move h => exact ⟨_, _, rfl, rfl, h⟩

theorem actor? (same : step.SameBut v step') : step'.actor? = step.actor? := by
  cases same with
  | same => rfl
  | move h => cases h <;> rfl

end Step.SameBut

/-! ## Changes that keep two sessions alike -/

namespace Alike

theorem refl (v : Uri) (s : Session) : Alike v s s := by
  refine ⟨.refl s, rfl, ⟨fun _ _ => rfl, rfl⟩, fun _ _ => rfl, ?_, fun _ _ => rfl⟩
  rw [List.forall₂_same]
  exact fun p _ => .refl v p

theorem withStore {a b : Store} (h : Alike v s t) (store : AlikeStores v a b) :
    Alike v { s with store := a } { t with store := b } :=
  ⟨⟨h.service.provider, h.service.config, h.service.refreshes⟩, h.scheduler, store, h.labels,
    h.passes, h.notices⟩

theorem withScheduler (h : Alike v s t) (scheduler : Scheduler) :
    Alike v { s with scheduler } { t with scheduler } :=
  ⟨⟨h.service.provider, h.service.config, h.service.refreshes⟩, rfl, h.store, h.labels, h.passes,
    h.notices⟩

theorem withPasses {ps qs : List Pass} (h : Alike v s t)
    (passes : List.Forall₂ (AlikePass v) ps qs) :
    Alike v { s with passes := ps } { t with passes := qs } :=
  ⟨⟨h.service.provider, h.service.config, h.service.refreshes⟩, h.scheduler, h.store, h.labels,
    passes, h.notices⟩

theorem withLabels {a b : List (Uri × List Label)} (h : Alike v s t)
    (labels : ∀ u, u ≠ v → b.lookup u = a.lookup u) :
    Alike v { s with labels := a } { t with labels := b } :=
  ⟨⟨h.service.provider, h.service.config, h.service.refreshes⟩, h.scheduler, h.store, labels,
    h.passes, h.notices⟩

/-- What is sent may differ in what it says about the document. -/
theorem tell {out out' : List Outgoing} (h : Alike v s t)
    (same : ∀ u, u ≠ v →
      out'.filterMap (Outgoing.noticeFor? u) = out.filterMap (Outgoing.noticeFor? u)) :
    Alike v { s with sent := s.sent ++ out } { t with sent := t.sent ++ out' } := by
  refine ⟨⟨h.service.provider, h.service.config, h.service.refreshes⟩, h.scheduler, h.store,
    h.labels, h.passes, ?_⟩
  intro u different
  rw [Session.notices, Session.notices, List.filterMap_append, List.filterMap_append,
    same u different]
  exact congrArg (· ++ _) (h.notices u different)

theorem begin (h : Alike v s t) (p : Pass) : Alike v (s.begin p) (t.begin p) :=
  h.withPasses (List.rel_append h.passes (.cons (.refl v p) .nil))

theorem erasePass (h : Alike v s t) (g : Nat) : Alike v (s.erasePass g) (t.erasePass g) := by
  refine h.withPasses (List.rel_filter ?_ h.passes)
  intro p q alike
  simp only [alike.generation]

/-! ## Messages of the editor -/

theorem openDocument {d e : Document} (h : Alike v s t) (now : Nat) (named : e.uri = d.uri)
    (same : d.uri ≠ v → e = d) : Alike v (s.openDocument now d) (t.openDocument now e) := by
  rw [Session.openDocument, Session.openDocument, h.scheduler, named]
  exact (h.withStore (h.store.insert named same)).withScheduler _

theorem changeDocument {changes changes' : List Change} {version version' : Int32}
    (h : Alike v s t) (now : Nat) (uri : Uri)
    (same : uri ≠ v → changes' = changes ∧ version' = version) :
    Alike v (s.changeDocument now uri changes version)
      (t.changeDocument now uri changes' version') := by
  obtain ⟨absent, absent'⟩ | ⟨d, e, found, found', held⟩ := h.store.get?_cases uri
  · simp only [Session.changeDocument, Store.change?, absent, absent', Option.map_none]
    exact h
  · have named : d.uri = uri := Store.uri_of_get? found
    have named' : e.uri = uri := Store.uri_of_get? found'
    have inserted : AlikeStores v (s.store.insert (d.apply changes version))
        (t.store.insert (e.apply changes' version')) := by
      refine h.store.insert (named'.trans named.symm) ?_
      intro different
      have away : uri ≠ v := named ▸ different
      obtain ⟨rfl, rfl⟩ := same away
      rw [held away]
    simp only [Session.changeDocument, Store.change?, found, found', Option.map_some, h.scheduler]
    split
    · exact (h.withStore inserted).withScheduler _
    · exact (h.withStore inserted).withScheduler s.scheduler

theorem eraseLabels (h : Alike v s t) (uri : Uri) :
    Alike v (s.eraseLabels uri) (t.eraseLabels uri) := by
  refine h.withLabels ?_
  intro u different
  by_cases own : u = uri
  · subst own
    exact (labels?_eraseLabels_self t u).trans (labels?_eraseLabels_self s u).symm
  · exact (labels?_eraseLabels_of_ne t own).trans
      ((h.labels u different).trans (labels?_eraseLabels_of_ne s own).symm)

theorem closeDocument (h : Alike v s t) (now : Nat) (uri : Uri) :
    Alike v (s.closeDocument now uri) (t.closeDocument now uri) := by
  have erased := (h.withStore (h.store.erase uri)).eraseLabels uri
  simp only [Session.closeDocument]
  rw [erased.scheduler]
  split
  · exact erased.withScheduler _
  · exact erased

theorem changeFocus (h : Alike v s t) (now : Nat) (uri : Option Uri) :
    Alike v (s.changeFocus now uri) (t.changeFocus now uri) := by
  have target : (uri.filter fun u => (t.store.get? u).isSome) =
      uri.filter fun u => (s.store.get? u).isSome := by
    congr 1
    funext u
    exact h.store.isSome u
  simp only [Session.changeFocus, target, h.scheduler]
  split
  · exact h.withScheduler _
  · exact h.withScheduler _

end Alike

/-! ## Passes -/

/-- Two sessions go on alike, and where a condition holds they send the same. -/
structure InStep (v : Uri) (agree : Prop) (s t s' t' : Session) : Prop where
  alike : Alike v s' t'
  sent : ∃ out out', s'.sent = s.sent ++ out ∧ t'.sent = t.sent ++ out' ∧ (agree → out' = out)

/-- The pass of a generation is not about to tell the editor about a document. -/
def Discreet (v : Uri) (g : Nat) (a : Act) (s : Session) : Prop :=
  a = .announce → ∀ p, s.pass? g = some p → p.uri = v → p.progress.next ≠ .announce

namespace InStep

variable {agree agree' : Prop}

theorem quiet (alike : Alike v s' t') (silent : s'.sent = s.sent) (silent' : t'.sent = t.sent) :
    InStep v agree s t s' t' := by
  refine ⟨alike, [], [], ?_, ?_, fun _ => rfl⟩
  · rw [silent, List.append_nil]
  · rw [silent', List.append_nil]

theorem mono (h : InStep v agree s t s' t') (weaker : agree' → agree) :
    InStep v agree' s t s' t' := by
  obtain ⟨alike, out, out', told, told', same⟩ := h
  exact ⟨alike, out, out', told, told', fun holds => same (weaker holds)⟩

theorem trans {s'' t'' : Session} (h : InStep v agree s t s' t')
    (h' : InStep v agree s' t' s'' t'') : InStep v agree s t s'' t'' := by
  obtain ⟨-, out, out', told, told', same⟩ := h
  obtain ⟨alike, more, more', later, later', same'⟩ := h'
  refine ⟨alike, out ++ more, out' ++ more', ?_, ?_, ?_⟩
  · rw [later, told, List.append_assoc]
  · rw [later', told', List.append_assoc]
  · intro holds
    rw [same holds, same' holds]

end InStep

theorem find?_cases {ps qs : List Pass} (alike : List.Forall₂ (AlikePass v) ps qs) (g : Nat) :
    ps.find? (·.generation = g) = none ∧ qs.find? (·.generation = g) = none ∨
      ∃ p q, ps.find? (·.generation = g) = some p ∧ qs.find? (·.generation = g) = some q ∧
        AlikePass v p q := by
  induction alike with
  | nil => exact .inl ⟨rfl, rfl⟩
  | @cons p q ps qs first rest ih =>
      by_cases own : p.generation = g
      · have own' : q.generation = g := first.generation.trans own
        rw [List.find?_cons_of_pos (by simpa using own),
          List.find?_cons_of_pos (by simpa using own')]
        exact .inr ⟨p, q, rfl, rfl, first⟩
      · have own' : q.generation ≠ g := fun same => own (first.generation.symm.trans same)
        rw [List.find?_cons_of_neg (by simpa using own),
          List.find?_cons_of_neg (by simpa using own')]
        exact ih

theorem any_request {ps qs : List Pass} (alike : List.Forall₂ (AlikePass v) ps qs) (request : Nat) :
    qs.any (·.request = some request) = ps.any (·.request = some request) := by
  induction alike with
  | nil => rfl
  | cons first rest ih => rw [List.any_cons, List.any_cons, first.request, ih]

/-- Two passes of one generation, in sessions that are alike. -/
structure Twins (v : Uri) (s t : Session) (g : Nat) (p q : Pass) : Prop where
  sessions : Alike v s t
  anchored : Anchored s
  found : s.pass? g = some p
  found' : t.pass? g = some q
  passes : AlikePass v p q

theorem Alike.setLabels {uri : Uri} {decorations decorations' : Decorations} (h : Alike v s t)
    (same : uri ≠ v → decorations' = decorations) :
    Alike v (s.setLabels uri decorations) (t.setLabels uri decorations') := by
  refine h.withLabels ?_
  intro u different
  by_cases own : u = uri
  · subst own
    obtain rfl := same different
    exact (labels?_setLabels_self t u decorations').trans
      (labels?_setLabels_self s u decorations').symm
  · exact (labels?_setLabels_of_ne t own decorations').trans
      ((h.labels u different).trans (labels?_setLabels_of_ne s own decorations).symm)

namespace Twins

variable {agree : Prop} {version : Int32} {metrics : List Metric}

theorem setProgress {progress progress' : Progress} (h : Twins v s t g p q)
    (next : progress'.next = progress.next) (same : p.uri ≠ v → progress' = progress) :
    Alike v (s.setProgress g progress) (t.setProgress g progress') := by
  refine h.sessions.withPasses ?_
  rw [List.forall₂_map_left_iff, List.forall₂_map_right_iff]
  have inside := (List.forall₂_and_left _ _).mpr ⟨fun _ member => member, h.sessions.passes⟩
  refine inside.imp ?_
  rintro a b ⟨member, alike⟩
  -- Of each session only one pass has the generation, so that nothing is asked of the others.
  by_cases own : a.generation = g
  · have first := own.trans (generation_of_pass? h.found).symm
    obtain rfl := eq_of_generation h.anchored.sound.distinct (mem_of_pass? h.found) member first
    rw [if_pos own, if_pos (alike.generation.trans own)]
    refine ⟨alike.uri, alike.generation, alike.began, alike.request, next, ?_⟩
    intro away
    rw [alike.elsewhere away, same away]
  · have own' : b.generation ≠ g := fun also => own (alike.generation.symm.trans also)
    rw [if_neg own, if_neg own']
    exact alike

/-- Two passes that end with the same outcome answer the same. -/
theorem conclude (h : Twins v s t g p q) (outcome : Outcome) :
    InStep v agree s t (s.conclude p outcome) (t.conclude q outcome) := by
  have same : q.replies outcome = p.replies outcome := by
    rw [Pass.replies, h.passes.request, Pass.replies]
  rw [conclude_eq_replies, conclude_eq_replies, same, h.passes.generation]
  exact ⟨(h.sessions.erasePass p.generation).tell fun _ _ => rfl, _, _, rfl, rfl, fun _ => rfl⟩

theorem snap (h : Twins v s t g p q) (begun : p.progress = .begun) :
    InStep v agree s t (s.takeSnapshot g) (t.takeSnapshot g) := by
  have begun' := q.progress.eq_of_next
  rw [h.passes.next, begun] at begun'
  obtain ⟨absent, absent'⟩ | ⟨d, e, stored, stored', held⟩ := h.sessions.store.get?_cases p.uri
  · rw [takeSnapshot_of_closed h.found begun absent,
      takeSnapshot_of_closed h.found' begun' (h.passes.uri ▸ absent')]
    exact h.conclude .noDocument
  · rw [takeSnapshot_of_begun h.found begun stored,
      takeSnapshot_of_begun h.found' begun' (h.passes.uri ▸ stored')]
    exact .quiet (h.setProgress rfl fun away => by rw [held away]) rfl rfl

theorem measure {d : Document} (h : Twins v s t g p q) (busy : p.progress = .measuring d) :
    InStep v agree s t (s.finishMeasuring g) (t.finishMeasuring g) := by
  have shape := q.progress.eq_of_next
  rw [h.passes.next, busy] at shape
  obtain ⟨e, busy'⟩ := shape
  rw [finishMeasuring_of_measuring h.found busy, finishMeasuring_of_measuring h.found' busy',
    h.sessions.service.provider]
  refine .quiet (h.setProgress rfl fun away => ?_) rfl rfl
  rw [h.passes.elsewhere away, busy] at busy'
  cases busy'
  rfl

theorem check (h : Twins v s t g p q) (measured : p.progress = .measured version metrics) :
    InStep v agree s t (s.checkLatest g) (t.checkLatest g) := by
  have shape := q.progress.eq_of_next
  rw [h.passes.next, measured] at shape
  obtain ⟨version', metrics', measured'⟩ := shape
  by_cases latest : s.scheduler.generation = g
  · rw [checkLatest_of_latest h.found measured latest,
      checkLatest_of_latest h.found' measured' (h.sessions.scheduler ▸ latest)]
    refine .quiet (h.setProgress rfl fun away => ?_) rfl rfl
    rw [h.passes.elsewhere away, measured] at measured'
    cases measured'
    rfl
  · rw [checkLatest_of_stale h.found measured latest,
      checkLatest_of_stale h.found' measured' (h.sessions.scheduler ▸ latest)]
    exact h.conclude .superseded

theorem store (h : Twins v s t g p q) (approved : p.progress = .approved version metrics) :
    InStep v agree s t (s.storeLabels g) (t.storeLabels g) := by
  have shape := q.progress.eq_of_next
  rw [h.passes.next, approved] at shape
  obtain ⟨version', metrics', approved'⟩ := shape
  have held (away : p.uri ≠ v) : version' = version ∧ metrics' = metrics := by
    rw [h.passes.elsewhere away, approved] at approved'
    cases approved'
    exact ⟨rfl, rfl⟩
  rw [storeLabels_eq h.found approved, storeLabels_eq h.found' approved', h.passes.uri,
    h.sessions.service.config]
  have labelled : Twins v (s.setLabels p.uri (Decorations.ofMetrics s.config metrics))
      (t.setLabels p.uri (Decorations.ofMetrics s.config metrics')) g p q :=
    ⟨h.sessions.setLabels fun away => by rw [(held away).2],
      ⟨h.anchored.sound, h.anchored.opened⟩, h.found, h.found', h.passes⟩
  refine .quiet (labelled.setProgress rfl fun away => ?_) rfl rfl
  rw [(held away).1, (held away).2]

/-- What a pass tells the editor may differ only if it is about the document. -/
theorem announce {decorations : Decorations} (h : Twins v s t g p q)
    (labelled : p.progress = .labelled version metrics decorations) :
    InStep v (p.uri ≠ v) s t (s.announce g) (t.announce g) := by
  have shape := q.progress.eq_of_next
  rw [h.passes.next, labelled] at shape
  obtain ⟨version', metrics', decorations', labelled'⟩ := shape
  rw [announce_eq h.found labelled, announce_eq h.found' labelled']
  have same (away : p.uri ≠ v) :
      Outgoing.decorations ⟨q.uri, version', decorations'⟩ ::
          (t.wishes ++ q.replies (.published metrics'.length)) =
        .decorations ⟨p.uri, version, decorations⟩ ::
          (s.wishes ++ p.replies (.published metrics.length)) := by
    rw [h.passes.elsewhere away, labelled] at labelled'
    cases labelled'
    rw [h.passes.elsewhere away, wishes, h.sessions.service.refreshes, wishes]
  refine ⟨(h.sessions.erasePass g).tell ?_, _, _, rfl, rfl, same⟩
  intro u different
  by_cases own : p.uri = v
  · have hidden : p.uri ≠ u := own.trans_ne different.symm
    have hidden' : q.uri ≠ u := h.passes.uri.trans_ne hidden
    rw [List.filterMap_cons, List.filterMap_cons, Outgoing.noticeFor?, Outgoing.noticeFor?,
      if_neg hidden, if_neg hidden', plain_wishes_replies, plain_wishes_replies]
  · rw [same own]

end Twins

theorem Alike.act (h : Alike v s t) (anchored : Anchored s) (g : Nat) (a : Act) :
    InStep v (s.Discreet v g a) s t (s.act g a) (t.act g a) := by
  obtain ⟨absent, absent'⟩ | ⟨p, q, found, found', alike⟩ := find?_cases h.passes g
  · rw [act_of_none absent, act_of_none absent']
    exact .quiet h rfl rfl
  · have twins : Twins v s t g p q := ⟨h, anchored, found, found', alike⟩
    by_cases turn : p.progress.next = a
    · subst turn
      cases reached : p.progress with
      | begun => exact twins.snap reached
      | measuring d => exact twins.measure reached
      | measured version metrics => exact twins.check reached
      | approved version metrics => exact twins.store reached
      | labelled version metrics decorations =>
          refine (twins.announce reached).mono ?_
          intro discreet named
          exact discreet rfl p found named (by rw [reached]; rfl)
    · rw [act_of_ne found turn, act_of_ne found' (alike.next.symm ▸ turn)]
      exact .quiet h rfl rfl

/-! ## Steps that are no acts -/

theorem answer_eq (s : Session) (request : Nat) (outcome : Outcome) :
    s.answer request outcome = { s with
      sent := s.sent ++ [.message outcome.message, .counted request outcome.functions?] } := by
  rw [answer, send, send, List.append_assoc]
  rfl

namespace Alike

theorem fire (h : Alike v s t) (now : Nat) : InStep v True s t (s.fire now) (t.fire now) := by
  simp only [Session.fire, h.scheduler]
  split
  · exact .quiet ((h.withScheduler _).begin _) rfl rfl
  · exact .quiet (h.withScheduler _) rfl rfl

theorem ask (h : Alike v s t) (now request : Nat) :
    InStep v True s t (s.ask now request) (t.ask now request) := by
  simp only [Session.ask, h.scheduler]
  split
  · exact .quiet ((h.withScheduler _).begin _) rfl rfl
  · rw [answer_eq, answer_eq]
    exact ⟨(h.withScheduler _).tell fun _ _ => rfl, _, _, rfl, rfl, fun _ => rfl⟩

theorem recalculate (h : Alike v s t) (anchored : Anchored s) (now request : Nat) :
    InStep v True s t (s.recalculate now request) (t.recalculate now request) := by
  have asked := h.ask now request
  simp only [recalculate_eq, h.scheduler]
  split
  · have anchored' : Anchored (s.ask now request) := anchored.effect (effect_ask none s now request)
    exact asked.trans ((asked.alike.act anchored' _ .snap).mono fun _ => nofun)
  · exact asked

theorem callOff (h : Alike v s t) (request : Nat) :
    InStep v True s t (s.callOff request) (t.callOff request) := by
  rw [Session.callOff, Session.callOff, any_request h.passes]
  split
  · have stopped := h.withPasses (List.rel_filter (p := (·.request ≠ some request))
      (q := (·.request ≠ some request))
      (fun p q alike => by simp only [alike.request]) h.passes)
    exact ⟨stopped.tell fun _ _ => rfl, _, _, rfl, rfl, fun _ => rfl⟩
  · exact .quiet h rfl rfl

/-- Moves that are no acts keep sessions alike, and both send the same. -/
theorem inert {m m' : Move} (h : Alike v s t) (anchored : Anchored s) (anchored' : Anchored t)
    (same : m.SameBut v m') (inert : (Step.move m).acts? = none) :
    InStep v True s t (s.move m) (t.move m') := by
  cases same with
  | opened now named named' =>
      refine .quiet (h.openDocument now (named'.trans named.symm) ?_) rfl rfl
      exact fun away => absurd named away
  | changed now changes changes' version version' =>
      refine .quiet (h.changeDocument now v fun away => absurd rfl away) ?_ ?_
      · exact (anchored.changeDocument now v changes version).sent
      · exact (anchored'.changeDocument now v changes' version').sent
  | same =>
      cases m with
      | event event =>
          cases event with
          | opened now document => exact .quiet (h.openDocument now rfl fun _ => rfl) rfl rfl
          | changed now uri changes version =>
              refine .quiet (h.changeDocument now uri fun _ => ⟨rfl, rfl⟩) ?_ ?_
              · exact (anchored.changeDocument now uri changes version).sent
              · exact (anchored'.changeDocument now uri changes version).sent
          | closed now uri =>
              refine .quiet (h.closeDocument now uri) ?_ ?_
              · exact (anchored.closeDocument now uri).sent
              · exact (anchored'.closeDocument now uri).sent
          | focused now uri =>
              refine .quiet (h.changeFocus now uri) ?_ ?_
              · exact (anchored.changeFocus now uri).sent
              · exact (anchored'.changeFocus now uri).sent
          | recalculated now request => exact h.recalculate anchored now request
          | stopped =>
              refine .quiet ?_ rfl rfl
              rw [Session.move, Session.move, step, step, shutdown, shutdown, h.scheduler]
              exact h.withScheduler _
          | fired now => exact h.fire now
          | _ => cases inert
      | asked now request => exact h.ask now request
      | calledOff request => exact h.callOff request
      | _ => cases inert

/-! ## Acts, one after another -/

/-- An invariant under which the pass of a generation is discreet makes both sessions send the same
as it acts. -/
theorem acts {agree : Prop} (h : Alike v s t) (anchored : Anchored s) (Holds : Session → Prop)
    (keeps : ∀ s a, Anchored s → Holds s → Holds (s.act g a))
    (discreet : agree → ∀ s a, Holds s → s.Discreet v g a) (holds : Holds s) (acts : List Act) :
    InStep v agree s t (acts.foldl (fun s a => s.act g a) s)
      (acts.foldl (fun s a => s.act g a) t) := by
  induction acts generalizing s t with
  | nil => exact .quiet h rfl rfl
  | cons a acts ih =>
      have first : InStep v agree s t (s.act g a) (t.act g a) :=
        (h.act anchored g a).mono fun agreed => discreet agreed s a holds
      exact first.trans (ih first.alike (anchored.act g a) (keeps s a anchored holds))

/-- The sessions send the same in a step if they do so in the acts of which the step is made. -/
theorem inStep {agree : Prop} {step step' : Step} (h : Alike v s t) (anchored : Anchored s)
    (anchored' : Anchored t) (same : step.SameBut v step')
    (acting : ∀ g acts, step.acts? = some (g, acts) →
      InStep v agree s t (acts.foldl (fun s a => s.act g a) s)
        (acts.foldl (fun s a => s.act g a) t)) :
    InStep v agree s t (s.advance step) (t.advance step') := by
  cases made : step.acts? with
  | none =>
      obtain ⟨m, m', rfl, rfl, moves⟩ := same.exists_move made
      exact (h.inert anchored anchored' moves made).mono fun _ => trivial
  | some pair =>
      obtain ⟨g, acts⟩ := pair
      rw [same.eq_of_acts made, advance_of_acts made, advance_of_acts made]
      exact acting g acts made

theorem advance {step step' : Step} (h : Alike v s t) (anchored : Anchored s)
    (anchored' : Anchored t) (same : step.SameBut v step') :
    Alike v (s.advance step) (t.advance step') := by
  have steps : InStep v False s t (s.advance step) (t.advance step') := by
    refine h.inStep anchored anchored' same fun g acts _ => ?_
    exact h.acts anchored (fun _ => True) (fun _ _ _ => id) (fun agreed => agreed.elim) trivial
      acts
  exact steps.alike

theorem follow {steps steps' : List Step} (h : Alike v s t) (anchored : Anchored s)
    (anchored' : Anchored t) (same : List.Forall₂ (Step.SameBut v) steps steps') :
    Alike v (s.follow steps) (t.follow steps') := by
  induction same generalizing s t with
  | nil => exact h
  | @cons step step' steps steps' first rest ih =>
      exact ih (h.advance anchored anchored' first) (anchored.advance step)
        (anchored'.advance step')

theorem hints? {u : Uri} (h : Alike v s t) (different : u ≠ v) (range : Range) :
    t.hints? u range = s.hints? u range := by
  rw [Session.hints?, h.labels u different, Session.hints?]

end Alike

/-! ## What is sent -/

theorem InStep.sentIn {step step' : Step}
    (h : InStep v True s t (s.advance step) (t.advance step')) :
    t.sentIn step' = s.sentIn step := by
  obtain ⟨-, out, out', told, told', same⟩ := h
  rw [Session.sentIn, Session.sentIn, told, told', List.drop_left, List.drop_left, same trivial]

/-- A pass of another document sends the same in both sessions, whenever it acts. -/
theorem Alike.sentBy {d : Document} {out : List Outgoing} {steps steps' : List Step}
    (h : Alike v s t) (anchored : Anchored s) (anchored' : Anchored t) (errand : Errand p d s out)
    (away : p.uri ≠ v) (same : List.Forall₂ (Step.SameBut v) steps steps') :
    Session.sentBy p.generation t steps' = Session.sentBy p.generation s steps := by
  induction same generalizing s t out with
  | nil => rfl
  | @cons step step' steps steps' first rest ih =>
      have tail := ih (h.advance anchored anchored' first) (anchored.advance step)
        (anchored'.advance step') (errand.advance anchored step)
      rw [Session.sentBy, Session.sentBy, tail, first.actor?]
      split
      · -- The invariant along the acts is the errand: it knows for which document the pass is.
        rename_i own
        congr 1
        refine InStep.sentIn (h.inStep anchored anchored' first fun g acts made => ?_)
        obtain rfl : g = p.generation := by
          rw [Step.actor?, made] at own
          exact Option.some.inj own
        refine h.acts anchored (fun s => ∃ out, Errand p d s out) ?_ ?_ ⟨out, errand⟩ acts
        · rintro s a anchored ⟨out, errand⟩
          obtain ⟨new, -, next⟩ := errand.act anchored a
          exact ⟨out ++ new, next⟩
        · rintro - s a ⟨out, errand⟩ - q found named
          exact absurd ((errand.uri found).symm.trans named) away
      · rfl

theorem Alike.recalculation {u : Uri} {since since' : List Step} (h : Alike v s t)
    (anchored : Anchored s) (anchored' : Anchored t) (different : u ≠ v)
    (active : s.scheduler.active = some u) (now request : Nat)
    (same : List.Forall₂ (Step.SameBut v) since since') :
    t.recalculation now request since' = s.recalculation now request since := by
  obtain ⟨d, stored⟩ := anchored.opened u active
  have asked := (h.recalculate anchored now request).alike
  have errand := (anchored.errand_recalculate active stored now request).2
  rw [anchored.recalculation_eq_sentBy active,
    anchored'.recalculation_eq_sentBy (h.scheduler ▸ active), h.scheduler]
  exact asked.sentBy (anchored.advance (.move (.event (.recalculated now request))))
    (anchored'.advance (.move (.event (.recalculated now request)))) errand different same

/-- While another document is active no pass of the document is approved. -/
theorem Unpublished.deed {out : List Outgoing} (h : s.Unpublished v) (anchored : Anchored s)
    (inactive : s.scheduler.active ≠ some v) (member : p ∈ s.passes) (deed : Deed s p out s') :
    s'.Unpublished v := by
  have fewer : ∀ q ∈ (s.erasePass p.generation).passes, q.uri = v →
      q.progress.isPublishing = false := fun q inside => h q (mem_erasePass.mp inside).1
  have only (q : Pass) (inside : q ∈ s.passes) (same : q.generation = p.generation) : q = p :=
    eq_of_generation anchored.sound.distinct member inside same
  cases deed with
  | snapped => exact h.setProgress fun _ _ _ _ => rfl
  | unfound => exact fewer
  | measured => exact h.setProgress fun _ _ _ _ => rfl
  | approved measured latest =>
      refine h.setProgress ?_
      intro q inside same named
      have own := anchored.active_of_latest member latest.symm
      rw [← only q inside same, named] at own
      exact absurd own inactive
  | superseded => exact fewer
  | labelled approved =>
      refine Unpublished.setProgress (s := s.setLabels p.uri _) h ?_
      intro q inside same named
      have other : p.uri ≠ v := h.elsewhere member (approved ▸ rfl)
      exact absurd (only q inside same ▸ named) other
  | announced => exact fewer

theorem Unpublished.act (h : s.Unpublished v) (anchored : Anchored s)
    (inactive : s.scheduler.active ≠ some v) (g : Nat) (a : Act) : (s.act g a).Unpublished v := by
  obtain idle | ⟨p, out, found, deed⟩ := act_cases s g a
  · rw [idle]
    exact h
  · exact h.deed anchored inactive (mem_of_pass? found) deed

/-- While another document is active, sessions whose passes publish in one move send the same. -/
theorem Alike.sentIn {m m' : Move} (h : Alike v s t) (fresh : Fresh s) (fresh' : Fresh t)
    (inactive : s.scheduler.active ≠ some v) (same : m.SameBut v m') :
    t.sentIn (.move m') = s.sentIn (.move m) := by
  have anchored := fresh.anchored
  refine InStep.sentIn (h.inStep anchored fresh'.anchored (.move same) fun g acts _ => ?_)
  refine h.acts anchored (fun s => s.Unpublished v ∧ s.scheduler.active ≠ some v) ?_ ?_
    ⟨fresh.unpublished v, inactive⟩ acts
  · rintro s a anchored ⟨unpublished, inactive⟩
    refine ⟨unpublished.act anchored inactive g a, ?_⟩
    rw [(acted_act s g a).scheduler]
    exact inactive
  · rintro - s a ⟨unpublished, -⟩ - p found named announces
    have idle := unpublished p (mem_of_pass? found) named
    cases reached : p.progress with
    | labelled =>
        rw [reached] at idle
        cases idle
    | _ =>
        rw [reached] at announces
        cases announces

theorem Alike.play {moves moves' : List Move} (h : Alike v s t) (fresh : Fresh s)
    (fresh' : Fresh t) (same : List.Forall₂ (Move.SameBut v) moves moves') :
    Alike v (s.play moves) (t.play moves') := by
  induction same generalizing s t with
  | nil => exact h
  | @cons m m' moves moves' first rest ih =>
      exact ih (h.advance fresh.anchored fresh'.anchored (.move first)) (fresh.move m)
        (fresh'.move m')

/-- Let two runs differ only in what they say a document holds. Then every other document has the
same decorations and hints in both. A request for a pass made while the other document is active is
answered the same, however passes are interrupted; and where passes publish in one move, everything
sent while the other document is active is the same. -/
theorem contents_do_not_interfere {u v : Uri} (different : u ≠ v) (provider : Provider)
    (config : Config) (refreshes : Bool) :
    (∀ steps steps', List.Forall₂ (Step.SameBut v) steps steps' →
      let s := (initial provider config refreshes).follow steps
      let t := (initial provider config refreshes).follow steps'
      t.notices u = s.notices u ∧ (∀ range, t.hints? u range = s.hints? u range) ∧
        t.scheduler.active = s.scheduler.active ∧
        (s.scheduler.active = some u → ∀ now request since since',
          List.Forall₂ (Step.SameBut v) since since' →
          t.recalculation now request since' = s.recalculation now request since)) ∧
      ∀ moves moves' m m', List.Forall₂ (Move.SameBut v) moves moves' → m.SameBut v m' →
        let s := (initial provider config refreshes).play moves
        let t := (initial provider config refreshes).play moves'
        s.scheduler.active = some u → t.sentIn (.move m') = s.sentIn (.move m) := by
  have anchored := anchored_initial provider config refreshes
  have fresh := fresh_initial provider config refreshes
  have start := Alike.refl v (initial provider config refreshes)
  constructor
  · intro steps steps' same s t
    have alike : Alike v s t := start.follow anchored anchored same
    refine ⟨alike.notices u different, alike.hints? different, ?_, ?_⟩
    · rw [alike.scheduler]
    · intro active now request since since' later
      exact alike.recalculation (anchored.follow steps) (anchored.follow steps') different active
        now request later
  · intro moves moves' m m' same next s t active
    have alike : Alike v s t := start.play fresh fresh same
    refine alike.sentIn (fresh.play moves) (fresh.play moves') ?_ next
    rw [active]
    exact fun own => different (Option.some.inj own)

/-- The draft is opened and in focus, and the note is opened and changed beside it. -/
def besideNote (text : String) (version : Int32) : List Step :=
  [.move (.event (.opened 0 ⟨note.uri, version, text⟩)), .move (.event (.opened 10 draft)),
    .move (.event (.changed 20 note.uri [⟨none, text⟩] version))]

theorem contents_do_not_interfere_draft :
    .counted 7 (some 1) ∈ ((initial oneFunction .default true).follow
        (besideNote "b" 1)).recalculation 300 7 [.move (.event (.finished 5))] ∧
      ((initial oneFunction .default true).follow (besideNote "c" 2)).recalculation 300 7
          [.move (.event (.finished 5))] =
        ((initial oneFunction .default true).follow (besideNote "b" 1)).recalculation 300 7
          [.move (.event (.finished 5))] := by
  have same : List.Forall₂ (Step.SameBut note.uri) (besideNote "b" 1) (besideNote "c" 2) :=
    .cons (.move (.opened 0 rfl rfl)) (.cons (.same _) (.cons (.move (.changed ..)) .nil))
  have different : draft.uri ≠ note.uri := by decide
  obtain ⟨-, -, -, answers⟩ :=
    (contents_do_not_interfere different oneFunction .default true).1 _ _ same
  exact ⟨by decide, answers (by decide) 300 7 _ _ (.cons (.same _) .nil)⟩

end Session

end FunctionMeter
