import FunctionMeter.Document.Basic
import FunctionMeter.Proofs.Text.Lines
import Mathlib

/-!
# Where an edit cuts a text

A position leads to a byte offset: first to a line, by its number, and then to a boundary of the
line's content, by a column in UTF-16 code units. The boundary is the one at the column, or, for a
column between the two units of a character, the one behind the character.

So the offset of a position divides the text, with as many line feeds before it as the position
says. An edit that is made takes out what lies between two such offsets and leaves everything before
and behind as it is.
-/

namespace FunctionMeter.Text

variable {cs line new result : List Char} {column n start stop : Nat} {p : Position} {range : Range}

/-! ## Columns -/

/-- A column of a line lies between the two code units of a character. -/
def InsidePair (line : List Char) (column : Nat) : Prop :=
  ∃ before c after, line = before ++ c :: after ∧ units c = 2 ∧ column = unitCount before + 1

theorem not_insidePair_zero (line : List Char) : ¬ InsidePair line 0 := by
  rintro ⟨before, c, after, -, -, column⟩
  omega

theorem not_insidePair_unitCount (before after : List Char) :
    ¬ InsidePair (before ++ after) (unitCount before) := by
  rintro ⟨first, c, rest, same, pair, column⟩
  obtain ⟨e, rfl, -⟩ | ⟨e, rfl, split⟩ := List.append_eq_append_iff.mp same
  · rw [unitCount_append] at column
    omega
  · rw [unitCount_append] at column
    cases e with
    | nil =>
        rw [unitCount_nil] at column
        omega
    | cons c' e =>
        obtain ⟨rfl, -⟩ := List.cons.inj split
        rw [unitCount_cons] at column
        omega

theorem InsidePair.cons (h : InsidePair line column) (c : Char) :
    InsidePair (c :: line) (units c + column) := by
  obtain ⟨before, pair, after, rfl, two, rfl⟩ := h
  refine ⟨c :: before, pair, after, rfl, two, ?_⟩
  rw [unitCount_cons, Nat.add_assoc]

/-- A column leads to the boundary at it, or to the one behind the character that it is inside. -/
theorem byteOfColumn?_eq_some (found : byteOfColumn? line column = some n) :
    ∃ before after, line = before ++ after ∧ n = byteCount before ∧
      (unitCount before = column ∨ unitCount before = column + 1 ∧ InsidePair line column) := by
  induction line, column using byteOfColumn?.induct generalizing n with
  | case1 line =>
      rw [byteOfColumn?] at found
      obtain rfl := Option.some.inj found
      exact ⟨[], line, rfl, rfl, .inl rfl⟩
  | case2 column => cases found
  | case3 c line column ih =>
      rw [byteOfColumn?] at found
      obtain ⟨m, inner, rfl⟩ := Option.map_eq_some_iff.mp found
      obtain ⟨before, after, rfl, rfl, reached⟩ := ih inner
      refine ⟨c :: before, after, rfl, rfl, ?_⟩
      rw [unitCount_cons]
      by_cases fits : units c ≤ column + 1
      · obtain meets | ⟨behind, inside⟩ := reached
        · exact .inl (by omega)
        · have shifted := inside.cons c
          rw [Nat.add_sub_cancel' fits] at shifted
          exact .inr ⟨by omega, shifted⟩
      · -- The column is the one between the two units of the character.
        have two : units c = 2 := by
          have bound := units_le_two c
          omega
        have first : column + 1 - units c = 0 := by omega
        rw [first] at reached
        obtain meets | ⟨-, inside⟩ := reached
        · exact .inr ⟨by omega, [], c, before ++ after, rfl, two, by rw [unitCount_nil]; omega⟩
        · exact absurd inside (not_insidePair_zero _)

/-! ## Positions -/

theorem offsetInLines?_eq (rows : List (List Char)) (line column : Nat) :
    offsetInLines? rows line column = rows[line]?.bind fun row =>
      (byteOfColumn? (chomp row) column).map (startOfLine rows line + ·) := by
  induction rows, line, column using offsetInLines?.induct with
  | case1 line column => rfl
  | case2 row rows column =>
      rw [offsetInLines?, List.getElem?_cons_zero, Option.bind_some]
      simp [startOfLine]
  | case3 row rows line column ih =>
      rw [offsetInLines?, ih, List.getElem?_cons_succ, startOfLine]
      cases rows[line]? with
      | none => rfl
      | some found =>
          rw [Option.bind_some, Option.bind_some, Option.map_map]
          congr 1
          funext column
          exact (Nat.add_assoc _ _ _).symm

/-- A position with an offset names a boundary in the content of its line. -/
theorem offset?_eq_some (found : offset? cs p = some n) :
    ∃ row before after, (rawLines cs)[p.line.toNat]? = some row ∧ chomp row = before ++ after ∧
      n = startOfLine (rawLines cs) p.line.toNat + byteCount before ∧
      (unitCount before = p.character.toNat ∨
        unitCount before = p.character.toNat + 1 ∧
          InsidePair (before ++ after) p.character.toNat) := by
  rw [offset?, offsetInLines?_eq] at found
  obtain ⟨row, line, inner⟩ := Option.bind_eq_some_iff.mp found
  obtain ⟨m, column, rfl⟩ := Option.map_eq_some_iff.mp inner
  obtain ⟨before, after, content, rfl, boundary⟩ := byteOfColumn?_eq_some column
  rw [content] at boundary
  exact ⟨row, before, after, line, content, rfl, boundary⟩

/-- The offset of a position divides the text behind the line feeds that the position counts. -/
theorem exists_append_of_offset? (found : offset? cs p = some n) :
    ∃ before after, cs = before ++ after ∧ n = byteCount before ∧
      before.count '\n' = p.line.toNat := by
  obtain ⟨row, first, rest, line, content, rfl, -⟩ := offset?_eq_some found
  obtain ⟨ending, same, -⟩ := exists_eq_chomp_append row
  obtain ⟨before, after, text, flat, feeds, size⟩ := exists_append_of_rawLines line
  rw [content] at same
  have flatFirst : first.count '\n' = 0 := by
    refine List.count_eq_zero.mpr fun member => flat ?_
    rw [same, List.append_assoc]
    exact List.mem_append_left _ member
  refine ⟨before ++ first, rest ++ ending ++ after, ?_, ?_, ?_⟩
  · rw [text, same]
    simp only [List.append_assoc]
  · rw [byteCount_append, size]
  · rw [List.count_append, feeds, flatFirst, Nat.add_zero]

/-! ## Edits -/

/-- A replacement cuts the text twice and puts the new characters between the outer parts. -/
theorem replaceBytes?_eq_some (replaced : replaceBytes? cs start stop new = some result) :
    ∃ before old after, cs = before ++ old ++ after ∧ start = byteCount before ∧
      stop = byteCount (before ++ old) ∧ result = before ++ new ++ after := by
  rw [replaceBytes?] at replaced
  split at replaced
  · rename_i ordered
    split at replaced
    · rename_i before rest first after cutStart cutStop
      obtain ⟨same, rfl⟩ := splitAtByte?_eq_some cutStart
      obtain ⟨same', rfl⟩ := splitAtByte?_eq_some cutStop
      obtain ⟨old, rfl, rfl⟩ := exists_append_of_byteCount_le (same.symm.trans same') ordered
      exact ⟨before, old, after, same', rfl, rfl, (Option.some.inj replaced).symm⟩
    · cases replaced
  · cases replaced

/-- An edit that is made takes out the text between two boundaries, each behind as many line feeds
as its position says. -/
theorem replaceRange?_eq_some (replaced : replaceRange? cs range new = some result) :
    ∃ before old after, cs = before ++ old ++ after ∧ result = before ++ new ++ after ∧
      before.count '\n' = range.start.line.toNat ∧
      (before ++ old).count '\n' = range.stop.line.toNat := by
  rw [replaceRange?] at replaced
  split at replaced
  · rename_i start stop foundStart foundStop
    obtain ⟨before, old, after, rfl, rfl, rfl, rfl⟩ := replaceBytes?_eq_some replaced
    refine ⟨before, old, after, rfl, rfl, ?_, ?_⟩
    · obtain ⟨before', rest, same, size, feeds⟩ := exists_append_of_offset? foundStart
      rw [List.append_assoc] at same
      rw [eq_of_byteCount same size, feeds]
    · obtain ⟨before', rest, same, size, feeds⟩ := exists_append_of_offset? foundStop
      rw [eq_of_byteCount same size, feeds]
  · cases replaced

end FunctionMeter.Text

namespace FunctionMeter

theorem Change.applyTo_ranged (cs : List Char) (range : Range) (new : String) :
    applyTo cs ⟨some range, new⟩ = (Text.replaceRange? cs range new.toList).getD cs := rfl

theorem Document.toList_text_apply (d : Document) (change : Change) (version : Int32) :
    (d.apply [change] version).text.toList = change.applyTo d.text.toList := by
  rw [apply, String.toList_ofList, List.foldl_cons, List.foldl_nil]

end FunctionMeter
