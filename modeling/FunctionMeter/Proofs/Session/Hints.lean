import FunctionMeter.Proofs.Session.Acts
import FunctionMeter.Proofs.Session.Closing
import Mathlib

/-!
# Hints agree with decorations

Hints are answered from labels that a session keeps beside everything else. They are nevertheless
what the editor was last told to draw: the last word about a document, which is a notice of its
decorations or its closing, decides the labels that are kept for it. `words` gives the words of one
move and `chronicle` those of a whole run.
-/

namespace FunctionMeter

/-- A hint shows a label: it stands where the label stands and tells its text, lines and tier. -/
def Hint.Shows (label : Label) (hint : Hint) : Prop :=
  hint.position = label.position ∧ hint.label = label.text ∧
    hint.tooltip = label.loc.toNat.repr ++ " LOC (" ++ label.category.name ++ " tier)"

namespace Session

variable {s : Session} {uri : Uri}

/-! ## Words about a document -/

/-- What decides the hints for a document: the editor is told what to draw for it, or it closes. -/
inductive Word where
  | told (notice : DecorationNotice)
  | closed
  deriving DecidableEq

/-- The labels to keep after a word. -/
def Word.labels? : Word → Option (List Label)
  | .told notice => notice.decorations.kept?
  | .closed => none

def Move.closes (uri : Uri) : Move → Bool
  | .event (.closed _ closed) => closed = uri
  | _ => false

/-- The words about a document in one move. -/
def words (s : Session) (uri : Uri) (m : Move) : List Word :=
  (((s.move m).notices uri).drop (s.notices uri).length).map .told ++
    if m.closes uri then [.closed] else []

/-- The words about a document in the course of moves. -/
def chronicle (uri : Uri) (s : Session) : List Move → List Word
  | [] => []
  | m :: moves => s.words uri m ++ chronicle uri (s.move m) moves

/-- The labels to keep after some words, given those before. -/
def labelsAfter (before : Option (List Label)) (words : List Word) : Option (List Label) :=
  words.foldl (fun _ word => word.labels?) before

theorem labelsAfter_append (before : Option (List Label)) (first rest : List Word) :
    labelsAfter before (first ++ rest) = labelsAfter (labelsAfter before first) rest :=
  List.foldl_append

theorem labelsAfter_concat (before : Option (List Label)) (words : List Word) (last : Word) :
    labelsAfter before (words ++ [last]) = last.labels? := by
  rw [labelsAfter_append]
  rfl

/-! ## What a move does to the labels -/

theorem labels_takeSnapshot (s : Session) (g : Nat) : (s.takeSnapshot g).labels = s.labels := by
  rw [takeSnapshot]
  split
  · rfl
  · split
    · split
      · rfl
      · rw [conclude_eq_replies]
        rfl
    · rfl

theorem labels_ask (s : Session) (now request : Nat) : (s.ask now request).labels = s.labels := by
  simp only [ask]
  split <;> rfl

theorem labels?_closeDocument (s : Session) (now : Nat) (closed uri : Uri) :
    (s.closeDocument now closed).labels? uri = if closed = uri then none else s.labels? uri := by
  have erased : (s.closeDocument now closed).labels? uri = (s.eraseLabels closed).labels? uri := by
    simp only [closeDocument]
    split <;> rfl
  rw [erased]
  split
  · rename_i same
    rw [same, labels?_eraseLabels_self]
  · rename_i different
    exact labels?_eraseLabels_of_ne s (Ne.symm different)

/-- Where no pass may publish, only the closing of a document changes labels, and only its own. -/
theorem labels?_move_of_silent (s : Session) {m : Move} (silent : m.publisher? = none) :
    (s.move m).labels? uri = if m.closes uri then none else s.labels? uri := by
  cases m with
  | event event =>
      cases event with
      | opened now document => rfl
      | changed now changed changes version =>
          show (s.changeDocument now changed changes version).labels.lookup uri = s.labels? uri
          simp only [changeDocument]
          split
          · rfl
          · split <;> rfl
      | closed now closed =>
          simp only [Session.move, Session.step, Move.closes, decide_eq_true_eq]
          exact labels?_closeDocument s now closed uri
      | focused now target =>
          show (s.changeFocus now target).labels.lookup uri = s.labels? uri
          simp only [changeFocus]
          split <;> rfl
      | recalculated now request =>
          show (s.recalculate now request).labels.lookup uri = s.labels? uri
          rw [recalculate_eq]
          split
          · rw [labels_takeSnapshot, labels_ask, labels?]
          · rw [labels_ask, labels?]
      | stopped => rfl
      | fired now =>
          show (s.fire now).labels.lookup uri = s.labels? uri
          simp only [fire]
          split <;> rfl
      | snapped g =>
          show (s.takeSnapshot g).labels.lookup uri = s.labels? uri
          rw [labels_takeSnapshot, labels?]
      | finished g => cases silent
  | asked now request =>
      show (s.ask now request).labels.lookup uri = s.labels? uri
      rw [labels_ask, labels?]
  | calledOff request =>
      show (s.callOff request).labels.lookup uri = s.labels? uri
      rw [callOff]
      split <;> rfl
  | measured g =>
      show (s.finishMeasuring g).labels.lookup uri = s.labels? uri
      obtain ⟨passes, same⟩ := finishMeasuring_eq s g
      rw [same]
      rfl
  | published g => cases silent

theorem words_of_told {m : Move} {told : List DecorationNotice} (stays : m.closes uri = false)
    (notices : (s.move m).notices uri = s.notices uri ++ told) :
    s.words uri m = told.map .told := by
  rw [words, notices, List.drop_left, stays]
  exact List.append_nil _

namespace Fresh

/-- A publication tells the editor of a document what is kept for it. -/
theorem labels?_publish (h : Fresh s) (g : Nat) (uri : Uri) :
    ∃ told, (s.publish g).notices uri = s.notices uri ++ told ∧
      (s.publish g).labels? uri = labelsAfter (s.labels? uri) (told.map .told) := by
  have untold (notices : (s.publish g).notices uri = s.notices uri)
      (labels : (s.publish g).labels? uri = s.labels? uri) :
      ∃ told, (s.publish g).notices uri = s.notices uri ++ told ∧
        (s.publish g).labels? uri = labelsAfter (s.labels? uri) (told.map .told) :=
    ⟨[], notices.trans (List.append_nil _).symm, labels⟩
  cases found : s.pass? g with
  | none =>
      rw [publish_of_none found] at untold ⊢
      exact untold rfl rfl
  | some p =>
      obtain begun | ⟨d, busy | measured, -⟩ := h.based p (mem_of_pass? found)
      · rw [publish_of_unmeasured found (.inl begun)] at untold ⊢
        exact untold rfl rfl
      · rw [publish_of_unmeasured found (.inr ⟨d, busy⟩)] at untold ⊢
        exact untold rfl rfl
      · by_cases latest : s.scheduler.generation = g
        · have published := publish_eq found measured latest
          have notices := notices_append_notice (plain_wishes_replies s p _)
            (congrArg sent published) uri
          refine ⟨_, notices, ?_⟩
          rw [published]
          split
          · rename_i same
            subst same
            exact labels?_setLabels_self s p.uri _
          · rename_i different
            exact labels?_setLabels_of_ne s (Ne.symm different) _
        · obtain ⟨answers, plain, dropped⟩ := publish_of_stale found measured latest
          rw [dropped] at untold ⊢
          exact untold (notices_append_plain plain rfl uri) rfl

theorem labels?_move (h : Fresh s) (m : Move) (uri : Uri) :
    (s.move m).labels? uri = labelsAfter (s.labels? uri) (s.words uri m) := by
  cases publishes : m.publisher? with
  | none =>
      have same := (h.anchored.effects_move publishes).notices uri
      rw [labels?_move_of_silent s publishes, words, same, List.drop_length, List.map_nil,
        List.nil_append]
      split <;> rfl
  | some g =>
      obtain rfl | rfl := Move.eq_of_publisher? publishes
      · obtain ⟨told, notices, labels⟩ := (h.finishMeasuring g).labels?_publish g uri
        obtain ⟨passes, measured⟩ := finishMeasuring_eq s g
        rw [measured] at notices labels
        have finished : s.move (.event (.finished g)) = { s with passes }.publish g := by
          rw [← measured]
          rfl
        rw [words_of_told rfl (finished ▸ notices), finished]
        exact labels
      · obtain ⟨told, notices, labels⟩ := h.labels?_publish g uri
        rw [words_of_told (m := .published g) rfl notices]
        exact labels

end Fresh

theorem Fresh.labels?_play (h : Fresh s) (moves : List Move) (uri : Uri) :
    (s.play moves).labels? uri = labelsAfter (s.labels? uri) (chronicle uri s moves) := by
  induction moves generalizing s with
  | nil => rfl
  | cons m moves ih =>
      rw [chronicle, labelsAfter_append, ← h.labels?_move]
      exact ih (h.move m)

/-! ## Hints -/

theorem forall₂_shows (labels : List Label) :
    List.Forall₂ Hint.Shows labels (labels.map Hint.ofLabel) := by
  rw [List.forall₂_map_right_iff, List.forall₂_same]
  intro label _
  exact ⟨rfl, rfl, rfl⟩

/-- The answer to a question for hints is decided by the last word about the document. There is none
if there is no such word, if the document was closed, or if the editor was told to clear it.
Otherwise it shows the labels that the editor was told to paint, those on the lines of the range and
in their order. -/
theorem hints_follow_decorations (provider : Provider) (config : Config) (refreshes : Bool)
    (moves : List Move) (uri : Uri) (range : Range) :
    let s := initial provider config refreshes
    let last := (chronicle uri s moves).getLast?
    (last = none → (s.play moves).hints? uri range = none) ∧
      (last = some .closed → (s.play moves).hints? uri range = none) ∧
      (∀ notice, last = some (.told notice) → notice.decorations = .clear →
        (s.play moves).hints? uri range = none) ∧
      ∀ notice highlights labels, last = some (.told notice) →
        notice.decorations = .paint highlights labels →
        ∃ hints, (s.play moves).hints? uri range = some hints ∧
          List.Forall₂ Hint.Shows
            (labels.filter fun label => range.start.line ≤ label.position.line ∧
              label.position.line ≤ range.stop.line) hints := by
  intro s last
  have kept := (fresh_initial provider config refreshes).labels?_play moves uri
  have decided (word : Word) (final : last = some word) :
      (s.play moves).labels? uri = word.labels? := by
    obtain ⟨before, same⟩ := List.getLast?_eq_some_iff.mp final
    exact kept.trans (same ▸ labelsAfter_concat _ before word)
  refine ⟨?_, ?_, ?_, ?_⟩
  · intro silent
    rw [List.getLast?_eq_none_iff.mp silent] at kept
    rw [hints?, kept]
    rfl
  · intro closed
    rw [hints?, decided .closed closed]
    rfl
  · rintro ⟨named, version, decorations⟩ told rfl
    rw [hints?, decided _ told]
    rfl
  · rintro ⟨named, version, decorations⟩ highlights labels told rfl
    rw [hints?, decided _ told]
    exact ⟨_, rfl, forall₂_shows _⟩

/-- The draft is opened, and its one function is labelled. -/
def labelledDraft : List Move :=
  [.event (.opened 0 draft), .event (.fired 250), .event (.snapped 2), .measured 2, .published 2]

theorem hints_follow_decorations_draft :
    (∃ hints, ((initial oneFunction .default true).play labelledDraft).hints? draft.uri
        ⟨⟨0, 0⟩, ⟨1, 0⟩⟩ = some hints ∧
      List.Forall₂ Hint.Shows [⟨⟨0, 1⟩, "0 LOC", "#4caf50", .low, 0⟩] hints) ∧
      ((initial oneFunction .default true).play
        (labelledDraft ++ [.event (.closed 300 draft.uri)])).hints? draft.uri
          ⟨⟨0, 0⟩, ⟨1, 0⟩⟩ = none := by
  obtain ⟨-, -, -, painted⟩ := hints_follow_decorations oneFunction .default true labelledDraft
    draft.uri ⟨⟨0, 0⟩, ⟨1, 0⟩⟩
  obtain ⟨-, closed, -⟩ := hints_follow_decorations oneFunction .default true
    (labelledDraft ++ [.event (.closed 300 draft.uri)]) draft.uri ⟨⟨0, 0⟩, ⟨1, 0⟩⟩
  refine ⟨?_, closed (by decide)⟩
  exact painted ⟨draft.uri, 1, .paint ⟨[⟨⟨0, 0⟩, ⟨0, 1⟩⟩], [], []⟩
    [⟨⟨0, 1⟩, "0 LOC", "#4caf50", .low, 0⟩]⟩ _ _ (by decide) rfl

end Session

end FunctionMeter
