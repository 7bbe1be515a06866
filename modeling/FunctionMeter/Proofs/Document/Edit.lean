import FunctionMeter.Proofs.Document.Mirror
import FunctionMeter.Proofs.Document.Offset
import FunctionMeter.Proofs.Position
import Mathlib

/-!
# Which edits are made

A position lies in a text if the text has its line and the content of the line has its column.
Exactly these positions have an offset, the offset is always a boundary between two characters, and
of two positions in order the later one has no smaller offset.

So it is known beforehand what becomes of an edit. With an end outside of the text it is passed
over, and its notification has the effect that it would have without it. With both ends in the text
and in order it is made. And whenever two offsets are found in order, the text can be cut at both of
them; a replacement never cuts through a character. Columns are counted without a bound here, so
that nothing has to be assumed about the length of a line.
-/

namespace FunctionMeter

namespace Text

variable {cs line row : List Char} {rows : List (List Char)} {column column' m n : Nat}
  {p q : Position} {range : Range} {start stop : Nat}

/-! ## Columns -/

/-- The columns of a line are those up to its size in code units. -/
theorem isSome_byteOfColumn? (line : List Char) (column : Nat) :
    (byteOfColumn? line column).isSome = true ↔ column ≤ unitCount line := by
  induction line, column using byteOfColumn?.induct with
  | case1 line => simp [byteOfColumn?]
  | case2 column => simp [byteOfColumn?]
  | case3 c line column ih =>
      rw [byteOfColumn?, Option.isSome_map, ih, unitCount_cons]
      omega

/-- A later column of a line has no smaller offset. -/
theorem byteOfColumn?_mono (ordered : column ≤ column')
    (first : byteOfColumn? line column = some m) (second : byteOfColumn? line column' = some n) :
    m ≤ n := by
  induction line, column using byteOfColumn?.induct generalizing column' m n with
  | case1 line =>
      rw [byteOfColumn?] at first
      obtain rfl := Option.some.inj first
      exact Nat.zero_le n
  | case2 column => cases first
  | case3 c line column ih =>
      obtain ⟨later, rfl⟩ : ∃ later, column' = later + 1 :=
        Nat.exists_eq_add_one.mpr (by omega)
      rw [byteOfColumn?] at first second
      obtain ⟨m', inner, rfl⟩ := Option.map_eq_some_iff.mp first
      obtain ⟨n', inner', rfl⟩ := Option.map_eq_some_iff.mp second
      have rest : m' ≤ n' := ih (Nat.sub_le_sub_right ordered _) inner inner'
      omega

theorem byteOfColumn?_le (found : byteOfColumn? line column = some n) : n ≤ byteCount line := by
  obtain ⟨before, after, rfl, rfl, -⟩ := byteOfColumn?_eq_some found
  rw [byteCount_append]
  exact Nat.le_add_right _ _

/-! ## Positions -/

/-- A position lies in a text: it names a line, and a column of the content of this line. -/
def Holds (cs : List Char) (p : Position) : Prop :=
  ∃ line, (lines cs)[p.line.toNat]? = some line ∧ p.character.toNat ≤ unitCount line

/-- The positions in a text are the ones that have an offset. -/
theorem isSome_offset? (cs : List Char) (p : Position) :
    (offset? cs p).isSome = true ↔ Holds cs p := by
  rw [offset?, offsetInLines?_eq, Holds]
  cases found : (rawLines cs)[p.line.toNat]? with
  | none => simp [getElem?_lines, found]
  | some row => simp [getElem?_lines, found, isSome_byteOfColumn?]

/-- A line ends before each later line starts. -/
theorem startOfLine_lt {i j : Nat} (found : rows[i]? = some row) (before : i < j)
    (within : j < rows.length) : startOfLine rows i + byteCount row < startOfLine rows j := by
  induction rows generalizing i j with
  | nil => cases found
  | cons first rows ih =>
      obtain ⟨j, rfl⟩ : ∃ k, j = k + 1 := Nat.exists_eq_add_one.mpr (by omega)
      cases i with
      | zero =>
          obtain rfl := Option.some.inj found
          simp only [startOfLine]
          omega
      | succ i =>
          have rest := ih found (Nat.lt_of_succ_lt_succ before) (Nat.lt_of_succ_lt_succ within)
          simp only [startOfLine]
          omega

/-- Offsets are in the order of their positions. -/
theorem offset?_mono (ordered : p.le q = true) (first : offset? cs p = some m)
    (second : offset? cs q = some n) : m ≤ n := by
  rw [offset?, offsetInLines?_eq] at first second
  obtain ⟨row, foundRow, shifted⟩ := Option.bind_eq_some_iff.mp first
  obtain ⟨row', foundRow', shifted'⟩ := Option.bind_eq_some_iff.mp second
  obtain ⟨m', inner, rfl⟩ := Option.map_eq_some_iff.mp shifted
  obtain ⟨n', inner', rfl⟩ := Option.map_eq_some_iff.mp shifted'
  obtain earlier | ⟨same, columns⟩ := Position.le_iff.mp ordered
  · -- The content of the earlier line ends before the later line starts.
    have content : m' ≤ byteCount row := by
      obtain ⟨ending, whole, -⟩ := exists_eq_chomp_append row
      rw [whole, byteCount_append]
      exact (byteOfColumn?_le inner).trans (Nat.le_add_right _ _)
    have apart := startOfLine_lt foundRow earlier (List.getElem?_eq_some_iff.mp foundRow').1
    omega
  · rw [same, foundRow', Option.some.injEq] at foundRow
    rw [foundRow] at inner'
    rw [same]
    exact Nat.add_le_add_left (byteOfColumn?_mono columns inner inner') _

/-! ## Ranges -/

/-- What lets an edit pass: both ends of its range have an offset, and the offsets are in order. -/
structure Admits (cs : List Char) (range : Range) (start stop : Nat) : Prop where
  first : offset? cs range.start = some start
  last : offset? cs range.stop = some stop
  ordered : start ≤ stop

/-- Two offsets are boundaries between characters, and cut a text into three parts. -/
structure CutsAt (cs : List Char) (start stop : Nat) (before old after : List Char) : Prop where
  text : cs = before ++ old ++ after
  start : start = byteCount before
  stop : stop = byteCount (before ++ old)

/-- A range with both ends in the text and in order passes. -/
theorem exists_admits (first : Holds cs range.start) (last : Holds cs range.stop)
    (ordered : range.start.le range.stop = true) : ∃ start stop, Admits cs range start stop := by
  obtain ⟨start, foundStart⟩ := Option.isSome_iff_exists.mp ((isSome_offset? _ _).mpr first)
  obtain ⟨stop, foundStop⟩ := Option.isSome_iff_exists.mp ((isSome_offset? _ _).mpr last)
  exact ⟨start, stop, foundStart, foundStop, offset?_mono ordered foundStart foundStop⟩

theorem Admits.holds (h : Admits cs range start stop) :
    Holds cs range.start ∧ Holds cs range.stop := by
  rw [← isSome_offset?, ← isSome_offset?, h.first, h.last]
  exact ⟨rfl, rfl⟩

/-- Offsets that pass are boundaries, so the replacement has no reason to fail. -/
theorem Admits.exists_cuts (h : Admits cs range start stop) (new : List Char) :
    ∃ before old after, CutsAt cs start stop before old after ∧
      replaceBytes? cs start stop new = some (before ++ new ++ after) := by
  obtain ⟨before, rest, text, rfl, -⟩ := exists_append_of_offset? h.first
  obtain ⟨whole, after, text', rfl, -⟩ := exists_append_of_offset? h.last
  obtain ⟨old, rfl, rfl⟩ := exists_append_of_byteCount_le (text.symm.trans text') h.ordered
  refine ⟨before, old, after, ⟨text', rfl, rfl⟩, ?_⟩
  have cutStart : splitAtByte? cs (byteCount before) = some (before, old ++ after) := by
    rw [text, splitAtByte?_append]
  have cutStop : splitAtByte? cs (byteCount (before ++ old)) = some (before ++ old, after) := by
    rw [text', splitAtByte?_append]
  rw [replaceBytes?, if_pos h.ordered, cutStart, cutStop]

/-- An edit is made exactly if it passes. -/
theorem isSome_replaceRange? (cs : List Char) (range : Range) (new : List Char) :
    (replaceRange? cs range new).isSome = true ↔ ∃ start stop, Admits cs range start stop := by
  constructor
  · intro made
    obtain ⟨result, replaced⟩ := Option.isSome_iff_exists.mp made
    rw [replaceRange?] at replaced
    split at replaced
    · rename_i start stop first last
      refine ⟨start, stop, first, last, ?_⟩
      obtain ⟨before, old, after, -, rfl, rfl, -⟩ := replaceBytes?_eq_some replaced
      rw [byteCount_append]
      exact Nat.le_add_right _ _
    · cases replaced
  · rintro ⟨start, stop, passes⟩
    obtain ⟨before, old, after, -, replaced⟩ := passes.exists_cuts new
    rw [replaceRange?_of_offsets new passes.first passes.last, replaced]
    rfl

end Text

namespace Document

open Text

theorem apply_append (d : Document) (earlier later : List Change) (version : Int32) :
    d.apply (earlier ++ later) version = (d.apply earlier version).apply later version := by
  simp only [apply, List.foldl_append, String.toList_ofList]

theorem apply_nil_apply (d : Document) (changes : List Change) (version : Int32) :
    (d.apply changes version).apply [] version = d.apply changes version := by
  rw [← apply_append, List.append_nil]

/-- An edit that does not pass leaves everything as it is but the version. -/
theorem apply_of_not_admits {d : Document} {range : Range} (new : String) (version : Int32)
    (refused : ¬ ∃ start stop, Admits d.text.toList range start stop) :
    d.apply [⟨some range, new⟩] version = d.apply [] version := by
  rw [← isSome_replaceRange? _ _ new.toList, Bool.not_eq_true, Option.isSome_eq_false_iff,
    Option.isNone_iff_eq_none] at refused
  rw [apply, apply, List.foldl_cons, Change.applyTo_ranged, refused, Option.getD_none]

/-- What becomes of an edit among the changes of a notification. It is judged by the text that the
changes before it have left, and the changes behind it are made to what it leaves. With an end
outside of the text it leaves the text as it is. With both ends in the text and in order it passes.
Once it passes it is made: its offsets cut the text into three parts, and the new characters take
the place of the second. And if it does not pass, for whatever reason, the notification does what it
would do without it. -/
theorem apply_ranged_change (d : Document) (earlier later : List Change) (range : Range)
    (new : String) (version : Int32) :
    let current := d.apply earlier version
    let text := current.text.toList
    let edited := current.apply [⟨some range, new⟩] version
    let notified := d.apply (earlier ++ ⟨some range, new⟩ :: later) version
    notified = edited.apply later version ∧
    (¬ Holds text range.start ∨ ¬ Holds text range.stop → edited.text = current.text) ∧
    (Holds text range.start → Holds text range.stop → range.start.le range.stop = true →
      ∃ start stop, Admits text range start stop) ∧
    (∀ start stop, Admits text range start stop →
      ∃ before old after, CutsAt text start stop before old after ∧
        replaceBytes? text start stop new.toList = some (before ++ new.toList ++ after) ∧
        edited.text.toList = before ++ new.toList ++ after) ∧
    ((¬ ∃ start stop, Admits text range start stop) →
      edited = current ∧ notified = d.apply (earlier ++ later) version) := by
  intro current text edited notified
  have sequence : notified = edited.apply later version := by
    show d.apply (earlier ++ ([⟨some range, new⟩] ++ later)) version = _
    rw [apply_append, apply_append]
  have refused (h : ¬ ∃ start stop, Admits text range start stop) : edited = current :=
    (apply_of_not_admits new version h).trans (apply_nil_apply d earlier version)
  refine ⟨sequence, ?_, exists_admits, ?_, ?_⟩
  · intro outside
    rw [refused]
    rintro ⟨start, stop, passes⟩
    obtain ⟨first, last⟩ := passes.holds
    exact outside.elim (absurd first) (absurd last)
  · intro start stop passes
    obtain ⟨before, old, after, cuts, replaced⟩ := passes.exists_cuts new.toList
    refine ⟨before, old, after, cuts, replaced, ?_⟩
    rw [toList_text_apply, Change.applyTo_ranged,
      replaceRange?_of_offsets _ passes.first passes.last, replaced, Option.getD_some]
  · intro h
    rw [sequence, refused h, ← apply_append]
    exact ⟨rfl, rfl⟩

/-- A note sign of two code units and a letter of two bytes, before a line ending of two
characters. -/
def finale : Document := ⟨⟨"untitled", none, "finale", none, none⟩, 1, "𝄞é\r\nx"⟩

/-- The first change names the place behind the carriage return and is passed over. The second
reaches from inside the note sign to the next line and is made. -/
theorem apply_ranged_change_finale :
    let outside : Change := ⟨some ⟨⟨0, 4⟩, ⟨0, 4⟩⟩, "!"⟩
    let inside : Change := ⟨some ⟨⟨0, 1⟩, ⟨1, 0⟩⟩, "-"⟩
    ¬ Holds finale.text.toList ⟨0, 4⟩ ∧
      finale.apply [outside, inside] 2 = finale.apply [inside] 2 ∧
      Admits finale.text.toList ⟨⟨0, 1⟩, ⟨1, 0⟩⟩ 4 8 ∧
      ∃ before old after, CutsAt finale.text.toList 4 8 before old after ∧
        (finale.apply [inside] 2).text.toList = before ++ ['-'] ++ after := by
  intro outside inside
  have away : ¬ Holds finale.text.toList ⟨0, 4⟩ := by
    rw [← isSome_offset?]
    decide
  have passes : Admits finale.text.toList ⟨⟨0, 1⟩, ⟨1, 0⟩⟩ 4 8 :=
    ⟨by decide, by decide, by decide⟩
  obtain ⟨-, -, -, -, skipped⟩ := apply_ranged_change finale [] [inside] ⟨⟨0, 4⟩, ⟨0, 4⟩⟩ "!" 2
  obtain ⟨-, -, -, made, -⟩ := apply_ranged_change finale [] [] ⟨⟨0, 1⟩, ⟨1, 0⟩⟩ "-" 2
  obtain ⟨-, notified⟩ := skipped fun ⟨_, _, h⟩ => away h.holds.1
  obtain ⟨before, old, after, cuts, -, text⟩ := made 4 8 passes
  exact ⟨away, notified, passes, before, old, after, cuts, text⟩

end Document

end FunctionMeter
