import FunctionMeter.Proofs.Text.Units
import FunctionMeter.Text.Basic
import Mathlib

/-!
# Lines of a text in parts

A line feed divides a text into the lines before it and the lines behind it; all else in this module
follows from that. If a text is put together from two parts, then the lines that end in the first
part do not depend on the second, and the lines that begin in the second do not depend on the first.
Only the line on which the parts meet has something of both.
-/

namespace FunctionMeter.Text

theorem rawLines_append_feed (before after : List Char) :
    rawLines (before ++ '\n' :: after) = rawLines before ++ rawLines after :=
  List.splitOn_append_cons_self before after

theorem rawLines_of_flat {cs : List Char} (flat : '\n' ∉ cs) : rawLines cs = [cs] :=
  List.splitOn_eq_singleton flat

theorem rawLines_line_feed {line : List Char} (flat : '\n' ∉ line) (rest : List Char) :
    rawLines (line ++ '\n' :: rest) = line :: rawLines rest := by
  rw [rawLines_append_feed, rawLines_of_flat flat, List.singleton_append]

theorem count_line_feed {line : List Char} (flat : '\n' ∉ line) (rest : List Char) :
    (line ++ '\n' :: rest).count '\n' = rest.count '\n' + 1 := by
  rw [List.count_append, List.count_cons_self, List.count_eq_zero.mpr flat, Nat.zero_add]

/-- Induction over the lines of a text: it is one line, or a line with more text behind its end. -/
@[elab_as_elim]
theorem line_induction {motive : List Char → Prop}
    (last : ∀ line, '\n' ∉ line → motive line)
    (feed : ∀ line rest, '\n' ∉ line → motive rest → motive (line ++ '\n' :: rest))
    (cs : List Char) : motive cs := by
  induction feeds : cs.count '\n' generalizing cs with
  | zero => exact last cs (List.count_eq_zero.mp feeds)
  | succ n ih =>
      have member : '\n' ∈ cs := List.count_pos_iff.mp (by omega)
      obtain ⟨line, rest, rfl, flat⟩ := List.eq_append_cons_of_mem member
      rw [count_line_feed flat] at feeds
      exact feed line rest flat (ih rest (by omega))

/-- There is one line more than there are line feeds. -/
theorem length_rawLines (cs : List Char) : (rawLines cs).length = cs.count '\n' + 1 := by
  induction cs using line_induction with
  | last line flat => rw [rawLines_of_flat flat, List.length_singleton, List.count_eq_zero.mpr flat]
  | feed line rest flat ih =>
      rw [rawLines_line_feed flat, List.length_cons, ih, count_line_feed flat]

/-- The lines that end in the first part of a text. -/
theorem take_rawLines_append (before after : List Char) :
    (rawLines (before ++ after)).take (before.count '\n') =
      (rawLines before).take (before.count '\n') := by
  induction before using line_induction with
  | last line flat => rw [List.count_eq_zero.mpr flat, List.take_zero, List.take_zero]
  | feed line rest flat ih =>
      rw [count_line_feed flat, List.append_assoc, List.cons_append, rawLines_line_feed flat,
        rawLines_line_feed flat, List.take_succ_cons, List.take_succ_cons, ih]

/-- The lines that begin in the second part of a text. -/
theorem drop_rawLines_append (before after : List Char) :
    (rawLines (before ++ after)).drop (before.count '\n' + 1) = (rawLines after).drop 1 := by
  induction before using line_induction with
  | last line flat =>
      rw [List.count_eq_zero.mpr flat, Nat.zero_add]
      cases after using line_induction with
      | last _ flatTail =>
          have flatAll : '\n' ∉ line ++ after := by simp [flat, flatTail]
          rw [rawLines_of_flat flatAll, rawLines_of_flat flatTail]
          rfl
      | feed tail rest flatTail =>
          have flatAll : '\n' ∉ line ++ tail := by simp [flat, flatTail]
          rw [← List.append_assoc, rawLines_line_feed flatAll, rawLines_line_feed flatTail]
          rfl
  | feed line rest flat ih =>
      rw [count_line_feed flat, List.append_assoc, List.cons_append, rawLines_line_feed flat,
        List.drop_succ_cons, ih]

/-- A line stands in its text behind as many line feeds as its number says. -/
theorem exists_append_of_rawLines {cs row : List Char} {line : Nat}
    (found : (rawLines cs)[line]? = some row) :
    ∃ before after, cs = before ++ row ++ after ∧ '\n' ∉ row ∧ before.count '\n' = line ∧
      byteCount before = startOfLine (rawLines cs) line := by
  induction cs using line_induction generalizing line with
  | last cs flat =>
      rw [rawLines_of_flat flat, List.getElem?_singleton] at found
      split at found
      · rename_i first
        obtain rfl := Option.some.inj found
        exact ⟨[], [], by simp, flat, first.symm, by rw [first, startOfLine, byteCount_nil]⟩
      · cases found
  | feed first rest flat ih =>
      rw [rawLines_line_feed flat] at found ⊢
      cases line with
      | zero =>
          obtain rfl := Option.some.inj found
          exact ⟨[], '\n' :: rest, rfl, flat, rfl, rfl⟩
      | succ line =>
          obtain ⟨before, after, rfl, flatRow, number, size⟩ := ih found
          refine ⟨first ++ '\n' :: before, after, by simp, flatRow, ?_, ?_⟩
          · rw [count_line_feed flat, number]
          · have feed : '\n'.utf8Size = 1 := by decide
            rw [startOfLine, ← size, byteCount_append, byteCount_cons, feed, Nat.add_assoc]

theorem getElem?_lines (cs : List Char) (line : Nat) :
    (lines cs)[line]? = ((rawLines cs)[line]?).map chomp := by
  rw [lines, List.getElem?_map]

/-- A line is its content with one carriage return behind it, or none. -/
theorem exists_eq_chomp_append (line : List Char) :
    ∃ ending, line = chomp line ++ ending ∧ (ending = [] ∨ ending = ['\r']) := by
  rw [chomp]
  split
  · rename_i ends
    exact ⟨['\r'], (List.dropLast_append_getLast? _ ends).symm, .inr rfl⟩
  · exact ⟨[], (List.append_nil _).symm, .inl rfl⟩

end FunctionMeter.Text
