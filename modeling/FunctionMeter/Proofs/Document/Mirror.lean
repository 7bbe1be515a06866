import FunctionMeter.Document.Basic
import FunctionMeter.Proofs.Text.Units
import Mathlib

/-!
# A document and the editor that changes it

An editor keeps a text of its own, edits it and tells the server in notifications what it did. It
may send whole new texts, or it may name the two boundaries between which it put new characters. It
names a boundary by the number of line feeds before it and by the number of UTF-16 code units
between the last of these and the boundary.

The main result is that the two texts never part: after every notification the document has the text
of the editor, whatever the edits were and however many a notification holds. One kind of boundary
has to be left out. A carriage return at the end of a line is not part of the line's content, so the
boundary behind it cannot be named.
-/

namespace FunctionMeter

namespace Text

/-! ## Boundaries and positions -/

/-- Every text has a first line; it is longer than a beginning without line feeds unless the text
goes on with a line feed or ends there. -/
theorem exists_rawLines_append {before : List Char} (after : List Char) (flat : '\n' ∉ before) :
    ∃ tail others, rawLines (before ++ after) = (before ++ tail) :: others ∧
      (tail = [] → after.head? = none ∨ after.head? = some '\n') := by
  by_cases feeds : '\n' ∈ after
  · obtain ⟨tail, rest, rfl, flatTail⟩ := List.eq_append_cons_of_mem feeds
    refine ⟨tail, rawLines rest, ?_, ?_⟩
    · rw [rawLines, ← List.append_assoc]
      exact List.splitOn_append_cons_self_of_not_mem (by simp [flat, flatTail]) rest
    · rintro rfl
      exact .inr rfl
  · refine ⟨after, [], ?_, ?_⟩
    · rw [rawLines]
      exact List.splitOn_eq_singleton (by simp [flat, feeds])
    · rintro rfl
      exact .inl rfl

theorem chomp_append {tail : List Char} (line : List Char) (nonempty : tail ≠ []) :
    chomp (line ++ tail) = line ++ chomp tail := by
  have last : (line ++ tail).getLast? = tail.getLast? := List.getLast?_append_of_ne_nil _ nonempty
  rw [chomp, chomp, last]
  split
  · exact List.dropLast_append_of_ne_nil nonempty
  · rfl

/-- The code units between the last line feed of a text and its end. -/
def lastColumn (cs : List Char) : Nat := unitCount (cs.rtakeWhile (· ≠ '\n'))

theorem lastColumn_of_flat {cs : List Char} (flat : '\n' ∉ cs) : lastColumn cs = unitCount cs := by
  rw [lastColumn, List.rtakeWhile_eq_self_iff.mpr]
  intro c member
  exact decide_eq_true fun same => flat (same ▸ member)

theorem lastColumn_append_feed (line rest : List Char) :
    lastColumn (line ++ '\n' :: rest) = lastColumn rest := by
  have stops : (line ++ '\n' :: rest).rtakeWhile (· ≠ '\n') = rest.rtakeWhile (· ≠ '\n') := by
    induction rest using List.reverseRecOn with
    | nil => exact List.rtakeWhile_concat_neg _ _ _ (by simp)
    | append_singleton rest c ih =>
        rw [← List.cons_append, ← List.append_assoc, List.rtakeWhile_concat,
          List.rtakeWhile_concat, ih]
  rw [lastColumn, lastColumn, stops]

/-- The line and the column of a boundary lead back to it, unless the boundary lies behind the
carriage return at the end of a line. -/
theorem offsetInLines?_boundary (before after : List Char)
    (clear : before.getLast? = some '\r' → ¬ (after.head? = none ∨ after.head? = some '\n')) :
    offsetInLines? (rawLines (before ++ after)) (before.count '\n') (lastColumn before) =
      some (byteCount before) := by
  -- The induction is on the number of lines that end before the boundary.
  induction feeds : before.count '\n' generalizing before with
  | zero =>
      have flat : '\n' ∉ before := List.count_eq_zero.mp feeds
      obtain ⟨tail, others, lines, short⟩ := exists_rawLines_append after flat
      rw [lines, lastColumn_of_flat flat, offsetInLines?]
      by_cases empty : tail = []
      · have kept : chomp before = before := by
          rw [chomp, if_neg fun ends => clear ends (short empty)]
        rw [empty, List.append_nil, kept]
        simpa using byteOfColumn?_append before []
      · rw [chomp_append before empty, byteOfColumn?_append]
  | succ n ih =>
      have member : '\n' ∈ before := List.count_pos_iff.mp (by omega)
      obtain ⟨line, rest, rfl, flat⟩ := List.eq_append_cons_of_mem member
      have fewer : rest.count '\n' = n := by
        rw [List.count_append, List.count_cons_self, List.count_eq_zero.mpr flat] at feeds
        omega
      have clearRest : rest.getLast? = some '\r' →
          ¬ (after.head? = none ∨ after.head? = some '\n') := by
        intro ends
        apply clear
        rw [List.getLast?_append, List.getLast?_cons, ends]
        rfl
      have lines : rawLines (line ++ '\n' :: rest ++ after) = line :: rawLines (rest ++ after) := by
        rw [List.append_assoc, List.cons_append, rawLines,
          List.splitOn_append_cons_self_of_not_mem flat]
        rfl
      have feed : '\n'.utf8Size = 1 := by decide
      rw [lines, lastColumn_append_feed, offsetInLines?, ih rest clearRest fewer, Option.map_some,
        byteCount_append, byteCount_cons, feed, Nat.add_assoc]

/-- Both cuts of a replacement are made where the parts of the text meet. -/
theorem replaceBytes?_boundaries {cs : List Char} {start stop : Nat} (new : List Char)
    (ordered : start ≤ stop) :
    replaceBytes? cs (byteCount (cs.take start)) (byteCount (cs.take stop)) new =
      some (cs.take start ++ new ++ cs.drop stop) := by
  have cut : ∀ n, splitAtByte? cs (byteCount (cs.take n)) = some (cs.take n, cs.drop n) := by
    intro n
    simpa using splitAtByte?_append (cs.take n) (cs.drop n)
  have sizes : byteCount (cs.take start) ≤ byteCount (cs.take stop) := by
    rw [← Nat.add_sub_cancel' ordered, List.take_add, byteCount_append]
    exact Nat.le_add_right _ _
  rw [replaceBytes?, if_pos sizes, cut start, cut stop]

theorem replaceRange?_of_offsets {cs : List Char} {range : Range} {start stop : Nat}
    (new : List Char) (first : offset? cs range.start = some start)
    (last : offset? cs range.stop = some stop) :
    replaceRange? cs range new = replaceBytes? cs start stop new := by
  simp only [replaceRange?, first, last]

end Text

/-! ## The editor -/

namespace Editor

/-- What an editor does to its own text: it takes a new one, or it puts new characters in the place
of those between two boundaries. A boundary is the number of characters before it. -/
inductive Edit where
  | rewrite (text : String)
  | replace (start stop : Nat) (new : String)
  deriving DecidableEq, Repr

def Edit.applyTo (text : List Char) : Edit → List Char
  | .rewrite new => new.toList
  | .replace start stop new => text.take start ++ new.toList ++ text.drop stop

/-- A boundary lies directly behind a carriage return that ends its line. -/
def BehindReturn (text : List Char) (boundary : Nat) : Prop :=
  (text.take boundary).getLast? = some '\r' ∧
    ((text.drop boundary).head? = none ∨ (text.drop boundary).head? = some '\n')

/-- A position names a boundary. Both of its numbers are words, so that boundaries too far out have
no position. -/
structure Names (text : List Char) (boundary : Nat) (p : Position) : Prop where
  line : p.line.toNat = (text.take boundary).count '\n'
  character : p.character.toNat = Text.lastColumn (text.take boundary)

/-- The change that an editor sends when it makes an edit to a text. -/
inductive Sends (text : List Char) : Edit → Change → Prop
  | rewrite (new : String) : Sends text (.rewrite new) ⟨none, new⟩
  | replace {start stop : Nat} {p q : Position} (new : String) (ordered : start ≤ stop)
      (within : stop ≤ text.length) (startClear : ¬ BehindReturn text start)
      (stopClear : ¬ BehindReturn text stop) (startNamed : Names text start p)
      (stopNamed : Names text stop q) : Sends text (.replace start stop new) ⟨some ⟨p, q⟩, new⟩

/-- The changes for a list of edits, each made to the text that the edits before have left. -/
inductive SendsAll : List Char → List Edit → List Change → Prop
  | nil (text : List Char) : SendsAll text [] []
  | cons {text : List Char} {edit : Edit} {change : Change} {edits : List Edit}
      {changes : List Change} (first : Sends text edit change)
      (rest : SendsAll (edit.applyTo text) edits changes) :
      SendsAll text (edit :: edits) (change :: changes)

/-- A notification with what the editor did before it sent it. -/
structure Notification where
  edits : List Edit
  changes : List Change
  version : Int32

def Notification.applyTo (text : List Char) (n : Notification) : List Char :=
  n.edits.foldl Edit.applyTo text

/-- An editor with a text sends notifications, each for the edits that it made since the one
before. -/
inductive Notifies : List Char → List Notification → Prop
  | nil (text : List Char) : Notifies text []
  | cons {text : List Char} {n : Notification} {later : List Notification}
      (first : SendsAll text n.edits n.changes) (rest : Notifies (n.applyTo text) later) :
      Notifies text (n :: later)

theorem Names.offset? {text : List Char} {boundary : Nat} {p : Position}
    (named : Names text boundary p) (clear : ¬ BehindReturn text boundary) :
    Text.offset? text p = some (Text.byteCount (text.take boundary)) := by
  have found := Text.offsetInLines?_boundary (text.take boundary) (text.drop boundary)
    fun ends next => clear ⟨ends, next⟩
  rwa [List.take_append_drop, ← named.line, ← named.character] at found

/-- A change does to the text of the document what the edit did to the text of the editor. -/
theorem Sends.applyTo_eq {text : List Char} {edit : Edit} {change : Change}
    (sent : Sends text edit change) : change.applyTo text = edit.applyTo text := by
  cases sent with
  | rewrite new => rfl
  | @replace start stop p q new ordered within startClear stopClear startNamed stopNamed =>
      have replaced : Text.replaceRange? text ⟨p, q⟩ new.toList =
          some (text.take start ++ new.toList ++ text.drop stop) := by
        rw [← Text.replaceBytes?_boundaries new.toList ordered]
        exact Text.replaceRange?_of_offsets new.toList (startNamed.offset? startClear)
          (stopNamed.offset? stopClear)
      change (Text.replaceRange? text ⟨p, q⟩ new.toList).getD text = _
      rw [replaced]
      rfl

theorem SendsAll.foldl_eq {text : List Char} {edits : List Edit} {changes : List Change}
    (sent : SendsAll text edits changes) :
    changes.foldl Change.applyTo text = edits.foldl Edit.applyTo text := by
  induction sent with
  | nil => rfl
  | cons first rest ih => rw [List.foldl_cons, List.foldl_cons, first.applyTo_eq, ih]

/-- After every notification the document has the text of the editor. -/
theorem document_follows_editor {d : Document} {history : List Notification}
    (sent : Notifies d.text.toList history) (n : Nat) :
    ((history.take n).foldl (fun d m => d.apply m.changes m.version) d).text.toList =
      (history.take n).foldl Notification.applyTo d.text.toList := by
  induction history generalizing d n with
  | nil => rw [List.take_nil, List.foldl_nil, List.foldl_nil]
  | cons m later ih =>
      cases n with
      | zero => rfl
      | succ n =>
          cases sent with
          | cons first rest =>
              have text : (d.apply m.changes m.version).text.toList =
                  m.applyTo d.text.toList := by
                rw [Document.apply, String.toList_ofList, first.foldl_eq, Notification.applyTo]
              rw [List.take_succ_cons, List.foldl_cons, List.foldl_cons, ← text]
              exact ih (text ▸ rest) n

/-- A text with a line ending of two characters and a note sign of two code units. -/
def score : Document := ⟨⟨"untitled", none, "score", none, none⟩, 1, "é\r\n𝄞x"⟩

/-- Edits behind the note sign and across the line ending; then, in a new text, an edit behind a
carriage return that stands inside its line. -/
def scoreHistory : List Notification :=
  [⟨[.replace 4 5 "yz\n", .replace 1 3 ""],
      [⟨some ⟨⟨1, 2⟩, ⟨1, 3⟩⟩, "yz\n"⟩, ⟨some ⟨⟨0, 1⟩, ⟨1, 0⟩⟩, ""⟩], 2⟩,
    ⟨[.rewrite "a\rb", .replace 2 2 "𝄞"],
      [⟨none, "a\rb"⟩, ⟨some ⟨⟨0, 2⟩, ⟨0, 2⟩⟩, "𝄞"⟩], 3⟩]

instance (text : List Char) (boundary : Nat) : Decidable (BehindReturn text boundary) :=
  inferInstanceAs (Decidable (_ ∧ _))

theorem document_follows_editor_score :
    Notifies score.text.toList scoreHistory ∧
      ((scoreHistory.take 2).foldl (fun d m => d.apply m.changes m.version) score).text.toList =
        (scoreHistory.take 2).foldl Notification.applyTo score.text.toList := by
  have behindNote : Sends "é\r\n𝄞x".toList (.replace 4 5 "yz\n")
      ⟨some ⟨⟨1, 2⟩, ⟨1, 3⟩⟩, "yz\n"⟩ :=
    .replace _ (by decide) (by decide) (by decide) (by decide) ⟨by decide, by decide⟩
      ⟨by decide, by decide⟩
  have acrossEnding : Sends "é\r\n𝄞yz\n".toList (.replace 1 3 "")
      ⟨some ⟨⟨0, 1⟩, ⟨1, 0⟩⟩, ""⟩ :=
    .replace _ (by decide) (by decide) (by decide) (by decide) ⟨by decide, by decide⟩
      ⟨by decide, by decide⟩
  have insideLine : Sends "a\rb".toList (.replace 2 2 "𝄞") ⟨some ⟨⟨0, 2⟩, ⟨0, 2⟩⟩, "𝄞"⟩ :=
    .replace _ (by decide) (by decide) (by decide) (by decide) ⟨by decide, by decide⟩
      ⟨by decide, by decide⟩
  have sent : Notifies score.text.toList scoreHistory :=
    .cons (.cons behindNote (.cons acrossEnding (.nil _)))
      (.cons (.cons (.rewrite _) (.cons insideLine (.nil _))) (.nil _))
  exact ⟨sent, document_follows_editor sent 2⟩

end Editor

end FunctionMeter
