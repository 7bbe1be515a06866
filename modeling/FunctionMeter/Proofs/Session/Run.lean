import FunctionMeter.Proofs.Session.Basic
import Mathlib

/-!
# No update is lost

The messages of an editor, the timer and the passes act on a session in any order. While a document
is active, either a measurement of it is still to come, by the armed timer or by a pass under way,
or the editor has last been sent the decorations of the document as it stands.

The invariant `Steady` says in addition why this is so: a pass that is still the latest works on the
document as it stands, since every change to the active document takes a new generation.
-/

namespace FunctionMeter.Session

open Scheduler.System (Sound)

variable {s s' : Session} {p : Pass} {d : Document} {g : Nat} {answers : List Outgoing}

/-- What can happen in a session: a message of the editor, or a step of the timer or a pass. -/
inductive Event where
  | opened (now : Nat) (document : Document)
  | changed (now : Nat) (uri : Uri) (changes : List Change) (version : Int32)
  | closed (now : Nat) (uri : Uri)
  | focused (now : Nat) (uri : Option Uri)
  | recalculated (now request : Nat)
  | stopped
  /-- The armed timer runs out. -/
  | fired (now : Nat)
  /-- The pass of a generation takes its snapshot. -/
  | snapped (generation : Nat)
  /-- The pass of a generation has measured, and publishes if it is still the latest. -/
  | finished (generation : Nat)

def step (s : Session) : Event → Session
  | .opened now document => s.openDocument now document
  | .changed now uri changes version => s.changeDocument now uri changes version
  | .closed now uri => s.closeDocument now uri
  | .focused now uri => s.changeFocus now uri
  | .recalculated now request => s.recalculate now request
  | .stopped => s.shutdown
  | .fired now => s.fire now
  | .snapped generation => s.takeSnapshot generation
  | .finished generation => s.finish generation

def run (s : Session) (events : List Event) : Session := events.foldl step s

/-- A session in which nothing has happened yet. -/
def initial (provider : Provider) (config : Config) (refreshes : Bool) : Session :=
  { provider, config, refreshes }

/-! ## What is known of the active document -/

/-- The timer is armed for a document, with the latest generation. -/
def Armed (s : Session) (uri : Uri) : Prop :=
  ∃ t, s.scheduler.timer = some t ∧ t.uri = uri ∧ t.generation = s.scheduler.generation

/-- A pass of the latest generation is under way for a document. -/
def Underway (s : Session) (uri : Uri) : Prop :=
  ∃ p ∈ s.passes, p.uri = uri ∧ p.generation = s.scheduler.generation

/-- The editor was last sent what the document as it stands gives, under its version. -/
def UpToDate (s : Session) (uri : Uri) : Prop :=
  ∃ d, s.store.get? uri = some d ∧
    (s.notices uri).getLast? =
      some ⟨uri, d.version, Decorations.ofMetrics s.config (s.provider.measure d)⟩

/-- The active document is open, passes finish only once they have a snapshot, and no update of the
active document is lost. -/
structure Steady (s : Session) : Prop where
  sound : Sound s.system
  opened : ∀ u, s.scheduler.active = some u → ∃ d, s.store.get? u = some d
  phase : ∀ p ∈ s.passes, p.progress = .begun ∨ ∃ d, p.progress = .measuring d
  /-- The snapshot of the latest pass is the document as it stands. -/
  current : ∀ p ∈ s.passes, p.generation = s.scheduler.generation →
    ∀ d, p.progress = .measuring d → s.store.get? p.uri = some d
  settled : ∀ u, s.scheduler.active = some u → s.Armed u ∨ s.Underway u ∨ s.UpToDate u

theorem Steady.active_of_latest (h : Steady s) (member : p ∈ s.passes)
    (latest : p.generation = s.scheduler.generation) : s.scheduler.active = some p.uri :=
  h.sound.latest _ (mem_system member) latest

theorem notices_append_plain (plain : Outgoing.Plain answers) (same : s'.sent = s.sent ++ answers)
    (uri : Uri) : s'.notices uri = s.notices uri := by
  rw [notices, same, List.filterMap_append, plain uri, List.append_nil, notices]

theorem notices_append_notice {notice : DecorationNotice} (plain : Outgoing.Plain answers)
    (same : s'.sent = s.sent ++ .decorations notice :: answers) (uri : Uri) :
    s'.notices uri = s.notices uri ++ if notice.uri = uri then [notice] else [] := by
  rw [notices, same, List.filterMap_append, List.filterMap_cons, Outgoing.noticeFor?, plain uri,
    notices]
  split_ifs <;> rfl

theorem UpToDate.keep {uri : Uri} (h : s.UpToDate uri)
    (stored : s'.store.get? uri = s.store.get? uri) (config : s'.config = s.config)
    (provider : s'.provider = s.provider) (notices : s'.notices uri = s.notices uri) :
    s'.UpToDate uri := by
  obtain ⟨d, found, last⟩ := h
  refine ⟨d, stored.trans found, ?_⟩
  rw [notices, config, provider, last]

/-! ## Changes that keep a session steady -/

/-- With the timer armed the latest generation has no pass yet, so nothing depends on the store but
that the document is there. -/
theorem Steady.armed {t : Timer} (h : Steady s) (sound : Sound s'.system)
    (same : s'.passes = s.passes) (armed : s'.scheduler.timer = some t)
    (stored : s'.store.get? t.uri = some d) : Steady s' := by
  obtain ⟨latest, active⟩ := sound.timer t armed
  have target : ∀ u, s'.scheduler.active = some u → t.uri = u := fun u turned =>
    Option.some.inj (active.symm.trans turned)
  refine ⟨sound, ?_, same ▸ h.phase, ?_, ?_⟩
  · intro u turned
    exact ⟨d, target u turned ▸ stored⟩
  · intro p member last
    exact absurd (last.trans latest.symm) (sound.fresh t armed _ (mem_system member))
  · intro u turned
    exact .inl ⟨t, armed, target u turned, latest⟩

/-- Without an active document no pass has the latest generation. -/
theorem steady_of_idle (sound : Sound s.system) (idle : s.scheduler.active = none)
    (phase : ∀ p ∈ s.passes, p.progress = .begun ∨ ∃ d, p.progress = .measuring d) :
    Steady s := by
  refine ⟨sound, ?_, phase, ?_, ?_⟩
  · intro u active
    rw [idle] at active
    cases active
  · intro p member latest
    have active : s.scheduler.active = some p.uri := sound.latest _ (mem_system member) latest
    rw [idle] at active
    cases active
  · intro u active
    rw [idle] at active
    cases active

theorem steady_initial (provider : Provider) (config : Config) (refreshes : Bool) :
    Steady (initial provider config refreshes) := by
  refine steady_of_idle Scheduler.System.sound_initial rfl ?_
  intro p member
  cases member

/-- What happens to other documents than the active one does not matter. -/
theorem Steady.elsewhere {store : Store} {labels : List (Uri × List Label)} (h : Steady s)
    (kept : ∀ u, s.scheduler.active = some u → store.get? u = s.store.get? u) :
    Steady { s with store, labels } := by
  refine ⟨h.sound, ?_, h.phase, ?_, ?_⟩
  · intro u active
    exact (kept u active).symm ▸ h.opened u active
  · intro p member latest d busy
    exact (kept p.uri (h.active_of_latest member latest)).trans (h.current p member latest d busy)
  · intro u active
    rcases h.settled u active with armed | underway | upToDate
    · exact .inl armed
    · exact .inr (.inl underway)
    · exact .inr (.inr (upToDate.keep (kept u active) rfl rfl rfl))

/-- A pass that begins is the only one of its generation, and it has no snapshot yet. -/
theorem Steady.begin {scheduler : Scheduler} (h : Steady s)
    (sound : Sound ({ s with scheduler }.begin p).system)
    (same : scheduler.active = s.scheduler.active) (latest : p.generation = scheduler.generation)
    (begun : p.progress = .begun) : Steady ({ s with scheduler }.begin p) := by
  have new : p ∈ ({ s with scheduler }.begin p).passes :=
    List.mem_append_right _ (List.mem_singleton_self p)
  refine ⟨sound, ?_, ?_, ?_, ?_⟩
  · intro u active
    exact h.opened u (same ▸ active)
  · intro q member
    rcases List.mem_append.mp member with old | last
    · exact h.phase q old
    · rw [List.mem_singleton.mp last]
      exact .inl begun
  · intro q member last d busy
    obtain rfl := eq_of_generation sound.distinct new member (last.trans latest.symm)
    rw [begun] at busy
    cases busy
  · intro u active
    have own := sound.latest _ (mem_system new) latest
    exact .inr (.inl ⟨p, new, Option.some.inj (own.symm.trans active), latest⟩)

theorem Steady.snap (h : Steady s) (member : p ∈ s.passes) (stored : s.store.get? p.uri = some d) :
    Steady (s.setProgress p.generation (.measuring d)) := by
  refine ⟨?_, h.opened, ?_, ?_, ?_⟩
  · rw [system_setProgress]
    exact h.sound
  · intro q inside
    rcases mem_setProgress inside with ⟨old, -⟩ | ⟨q', -, -, rfl⟩
    · exact h.phase q old
    · exact .inr ⟨d, rfl⟩
  · intro q inside latest e busy
    rcases mem_setProgress inside with ⟨old, -⟩ | ⟨q', old, same, rfl⟩
    · exact h.current q old latest e busy
    · obtain rfl := eq_of_generation h.sound.distinct member old same
      cases busy
      exact stored
  · intro u active
    rcases h.settled u active with armed | ⟨q, inside, rfl, latest⟩ | upToDate
    · exact .inl armed
    · have kept := mem_system inside
      rw [← system_setProgress s p.generation (.measuring d)] at kept
      obtain ⟨r, still, same⟩ := List.mem_map.mp kept
      obtain ⟨named, numbered⟩ := Prod.mk.inj same
      exact .inr (.inl ⟨r, still, named, numbered.trans latest⟩)
    · exact .inr (.inr upToDate)

theorem sound_erasePass (sound : Sound s.system) (g : Nat) : Sound (s.erasePass g).system := by
  rw [system_erasePass s g true]
  exact sound.step _

/-- The end of an outdated pass changes nothing for the active document. -/
theorem Steady.drop (h : Steady s) (stale : s.scheduler.generation ≠ g)
    (plain : Outgoing.Plain answers) :
    Steady { s.erasePass g with sent := s.sent ++ answers } := by
  refine ⟨sound_erasePass h.sound g, h.opened, ?_, ?_, ?_⟩
  · exact fun p member => h.phase p (mem_erasePass.mp member).1
  · exact fun p member => h.current p (mem_erasePass.mp member).1
  · intro u active
    rcases h.settled u active with armed | ⟨p, member, named, latest⟩ | upToDate
    · exact .inl armed
    · have other : p.generation ≠ g := fun same => stale (latest.symm.trans same)
      exact .inr (.inl ⟨p, mem_erasePass.mpr ⟨member, other⟩, named, latest⟩)
    · exact .inr (.inr (upToDate.keep rfl rfl rfl (notices_append_plain plain rfl u)))

/-- The latest pass publishes what the document as it stands gives. -/
theorem Steady.publish {labels : List (Uri × List Label)} (h : Steady s) (member : p ∈ s.passes)
    (latest : p.generation = s.scheduler.generation) (busy : p.progress = .measuring d)
    (plain : Outgoing.Plain answers) :
    Steady { s.erasePass p.generation with
      labels
      sent := s.sent ++ .decorations ⟨p.uri, d.version,
        Decorations.ofMetrics s.config (s.provider.measure d)⟩ :: answers } := by
  refine ⟨sound_erasePass h.sound p.generation, h.opened, ?_, ?_, ?_⟩
  · exact fun q inside => h.phase q (mem_erasePass.mp inside).1
  · exact fun q inside => h.current q (mem_erasePass.mp inside).1
  · intro u active
    obtain rfl := Option.some.inj ((h.active_of_latest member latest).symm.trans active)
    refine .inr (.inr ⟨d, h.current p member latest d busy, ?_⟩)
    simp only [notices, List.filterMap_append, List.filterMap_cons, Outgoing.noticeFor?, if_true,
      plain p.uri, List.getLast?_concat]
    rfl

/-! ## What one event preserves -/

/-- Only a session that serves has an active document. -/
theorem Steady.serving {uri : Uri} (h : Steady s) (active : s.scheduler.active = some uri) :
    s.scheduler.closed = false := by
  cases closed : s.scheduler.closed with
  | false => rfl
  | true =>
      have idle : s.scheduler.active = none := h.sound.closed closed
      rw [idle] at active
      cases active

theorem Steady.openDocument (h : Steady s) (now : Nat) (d : Document) :
    Steady (s.openDocument now d) := by
  have sound : Sound (s.openDocument now d).system := h.sound.step (.turnTo now (some d.uri))
  cases closed : s.scheduler.closed with
  | true =>
      have still := Scheduler.turnTo_of_closed now (some d.uri) closed
      refine steady_of_idle sound ?_ h.phase
      rw [Session.openDocument, still]
      exact h.sound.closed closed
  | false =>
      have turned := congrArg Scheduler.timer (Scheduler.turnTo_some now d.uri closed)
      exact h.armed sound rfl turned (Store.get?_insert_self s.store d)

theorem Steady.changeDocument (h : Steady s) (now : Nat) (uri : Uri) (changes : List Change)
    (version : Int32) : Steady (s.changeDocument now uri changes version) := by
  cases changed : s.store.change? uri changes version with
  | none =>
      simp only [Session.changeDocument, changed]
      exact h
  | some result =>
      obtain ⟨updated, store⟩ := result
      obtain ⟨-, -, -, rfl, rfl⟩ := Store.change?_eq_some changed
      simp only [Session.changeDocument, changed]
      split
      · rename_i active
        have armed := congrArg Scheduler.timer
          (Scheduler.schedule_of_some now .edit (h.serving active) active)
        exact h.armed (h.sound.step (.schedule now .edit)) rfl armed
          (Store.get?_insert_self s.store updated)
      · -- Snapshots of other documents may be outdated now, but not the one of the latest pass.
        rename_i inactive
        refine h.elsewhere ?_
        intro u active
        refine Store.get?_insert_of_ne s.store ?_
        rintro rfl
        exact inactive active

theorem Steady.closeDocument (h : Steady s) (now : Nat) (uri : Uri) :
    Steady (s.closeDocument now uri) := by
  simp only [Session.closeDocument]
  split
  · rename_i active
    have turned := congrArg Scheduler.active (Scheduler.turnTo_none now (h.serving active))
    exact steady_of_idle (h.sound.step (.turnTo now none)) turned h.phase
  · rename_i inactive
    refine h.elsewhere ?_
    intro u active
    refine Store.get?_erase_of_ne s.store ?_
    rintro rfl
    exact inactive active

theorem Steady.shutdown (h : Steady s) : Steady s.shutdown :=
  steady_of_idle (h.sound.step .shutdown) rfl h.phase

theorem Steady.turnTo (h : Steady s) (now : Nat) (uri : Option Uri)
    (opened : ∀ u, uri = some u → (s.store.get? u).isSome = true) :
    Steady { s with scheduler := s.scheduler.turnTo now uri } := by
  have sound : Sound { s with scheduler := s.scheduler.turnTo now uri }.system :=
    h.sound.step (.turnTo now uri)
  cases closed : s.scheduler.closed with
  | true =>
      rw [Scheduler.turnTo_of_closed now uri closed]
      exact h
  | false =>
      cases uri with
      | none =>
          have turned := congrArg Scheduler.active (Scheduler.turnTo_none now closed)
          exact steady_of_idle sound turned h.phase
      | some u =>
          have turned := congrArg Scheduler.timer (Scheduler.turnTo_some now u closed)
          obtain ⟨d, stored⟩ := Option.isSome_iff_exists.mp (opened u rfl)
          exact h.armed sound rfl turned stored

theorem Steady.schedule (h : Steady s) (now : Nat) (trigger : Trigger) :
    Steady { s with scheduler := s.scheduler.schedule now trigger } := by
  have sound : Sound { s with scheduler := s.scheduler.schedule now trigger }.system :=
    h.sound.step (.schedule now trigger)
  cases active : s.scheduler.active with
  | none =>
      refine steady_of_idle sound ?_ h.phase
      cases closed : s.scheduler.closed with
      | true => rw [Scheduler.schedule_of_closed now trigger closed, active]
      | false =>
          rw [Scheduler.schedule_of_none now trigger closed active]
          exact active
  | some u =>
      have armed := congrArg Scheduler.timer
        (Scheduler.schedule_of_some now trigger (h.serving active) active)
      obtain ⟨d, stored⟩ := h.opened u active
      exact h.armed sound rfl armed stored

theorem Steady.changeFocus (h : Steady s) (now : Nat) (uri : Option Uri) :
    Steady (s.changeFocus now uri) := by
  simp only [Session.changeFocus]
  split
  · exact h.schedule now .focus
  · refine h.turnTo now _ ?_
    intro u same
    exact (Option.filter_eq_some_iff.mp same).2

theorem Steady.fire (h : Steady s) (now : Nat) : Steady (s.fire now) := by
  cases armed : s.scheduler.timer with
  | none =>
      have still : s.scheduler.cancel = s.scheduler := by rw [Scheduler.cancel, ← armed]
      rw [fire_of_none now armed, still]
      exact h
  | some t =>
      have sound : Sound (s.system.begin s.scheduler.fire) := h.sound.step .fire
      rw [fire_of_some now armed]
      refine h.begin ?_ rfl (h.sound.timer t armed).1 rfl
      rw [system_begin, ← Scheduler.fire_of_some armed]
      exact sound

theorem Steady.takeSnapshot (h : Steady s) (g : Nat) : Steady (s.takeSnapshot g) := by
  cases found : s.pass? g with
  | none =>
      rw [takeSnapshot_of_none found]
      exact h
  | some p =>
      have member := mem_of_pass? found
      obtain rfl := generation_of_pass? found
      rcases h.phase p member with begun | ⟨d, busy⟩
      · cases stored : s.store.get? p.uri with
        | none =>
            -- The latest pass is for the active document, which is open.
            have stale : s.scheduler.generation ≠ p.generation := by
              intro latest
              obtain ⟨d, present⟩ := h.opened p.uri (h.active_of_latest member latest.symm)
              rw [stored] at present
              cases present
            obtain ⟨answers, plain, ended⟩ := conclude_eq s p .noDocument
            rw [takeSnapshot_of_closed found begun stored, ended]
            exact h.drop stale plain
        | some d =>
            rw [takeSnapshot_of_begun found begun stored]
            exact h.snap member stored
      · rw [takeSnapshot_of_measuring found busy]
        exact h

theorem Steady.finish (h : Steady s) (g : Nat) : Steady (s.finish g) := by
  cases found : s.pass? g with
  | none =>
      rw [finish_of_none found]
      exact h
  | some p =>
      have member := mem_of_pass? found
      obtain rfl := generation_of_pass? found
      rcases h.phase p member with begun | ⟨d, busy⟩
      · rw [finish_of_begun found begun]
        exact h
      · by_cases latest : s.scheduler.generation = p.generation
        · obtain ⟨labels, answers, plain, published⟩ := finish_of_latest found busy latest
          rw [published]
          exact h.publish member latest.symm busy plain
        · obtain ⟨answers, plain, superseded⟩ := finish_of_stale found busy latest
          rw [superseded]
          exact h.drop latest plain

theorem Steady.recalculate (h : Steady s) (now request : Nat) :
    Steady (s.recalculate now request) := by
  cases active : s.scheduler.active with
  | none =>
      simp only [Session.recalculate, Scheduler.startNow_of_none active]
      exact steady_of_idle (h.sound.step .cancel) active h.phase
  | some u =>
      have started := Scheduler.startNow_of_some (h.serving active) active
      have sound : Sound (s.system.begin s.scheduler.startNow) := h.sound.step .startNow
      simp only [Session.recalculate, started]
      refine (h.begin ?_ active.symm rfl rfl).takeSnapshot _
      rw [system_begin, ← started]
      exact sound

theorem Steady.step (h : Steady s) (event : Event) : Steady (s.step event) := by
  cases event with
  | opened now document => exact h.openDocument now document
  | changed now uri changes version => exact h.changeDocument now uri changes version
  | closed now uri => exact h.closeDocument now uri
  | focused now uri => exact h.changeFocus now uri
  | recalculated now request => exact h.recalculate now request
  | stopped => exact h.shutdown
  | fired now => exact h.fire now
  | snapped generation => exact h.takeSnapshot generation
  | finished generation => exact h.finish generation

theorem Steady.run (h : Steady s) (events : List Event) : Steady (s.run events) := by
  induction events generalizing s with
  | nil => exact h
  | cons event events ih => exact ih (h.step event)

/-- After any events, the active document has a timer or a pass of the latest generation, or the
editor was last sent what this document as it stands gives. A session that was shut down has no
active document. -/
theorem no_update_lost (provider : Provider) (config : Config) (refreshes : Bool)
    (events : List Event) (uri : Uri)
    (active : ((initial provider config refreshes).run events).scheduler.active = some uri) :
    ((initial provider config refreshes).run events).Armed uri ∨
      ((initial provider config refreshes).run events).Underway uri ∨
      ((initial provider config refreshes).run events).UpToDate uri :=
  ((steady_initial provider config refreshes).run events).settled uri active

def draft : Document := ⟨⟨"untitled", none, "draft", none, none⟩, 1, "a"⟩

/-- The draft changes after the first pass has taken its snapshot, so that this pass is outdated
when it finishes; the timer that the change arms begins a second one. -/
def draftEvents : List Event :=
  [.opened 0 draft, .fired 250, .snapped 2, .changed 260 draft.uri [⟨none, "ab"⟩] 2, .finished 2,
    .fired 510, .snapped 3, .finished 3]

theorem no_update_lost_draft :
    ((initial .silent .default true).run draftEvents).scheduler.active = some draft.uri ∧
      (((initial .silent .default true).run draftEvents).Armed draft.uri ∨
        ((initial .silent .default true).run draftEvents).Underway draft.uri ∨
        ((initial .silent .default true).run draftEvents).UpToDate draft.uri) := by
  have active : ((initial .silent .default true).run draftEvents).scheduler.active =
      some draft.uri := by decide
  exact ⟨active, no_update_lost .silent .default true draftEvents draft.uri active⟩

end FunctionMeter.Session
