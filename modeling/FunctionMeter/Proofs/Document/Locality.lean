import FunctionMeter.Proofs.Document.Offset
import FunctionMeter.Proofs.Loc
import Mathlib

/-!
# Edits leave other lines alone

An edit from one line to another replaces what lies between two boundaries of the text. The lines
before its first line stay where they are, and the lines behind its last line stay what they are:
they only move, by the line feeds that the edit brings less those that it takes away.

So a function that stands before an edit or behind it keeps its lines of code. The count is taken at
the place to which the function has moved.
-/

namespace FunctionMeter

namespace Document

variable {d : Document} {range : Range} {new : String}

/-- An edit of a document that is made, in the parts of the text that it keeps and replaces. -/
theorem exists_parts_of_edit (version : Int32)
    (applied : (Text.replaceRange? d.text.toList range new.toList).isSome = true) :
    ∃ before old after, d.text.toList = before ++ old ++ after ∧
      (d.apply [⟨some range, new⟩] version).text.toList = before ++ new.toList ++ after ∧
      before.count '\n' = range.start.line.toNat ∧
      (before ++ old).count '\n' = range.stop.line.toNat := by
  obtain ⟨result, replaced⟩ := Option.isSome_iff_exists.mp applied
  obtain ⟨before, old, after, text, rfl, start, stop⟩ := Text.replaceRange?_eq_some replaced
  refine ⟨before, old, after, text, ?_, start, stop⟩
  rw [toList_text_apply, Change.applyTo_ranged, replaced, Option.getD_some]

theorem lines_eq (d : Document) :
    d.lines = (Text.rawLines d.text.toList).map (String.ofList ∘ Text.chomp) := by
  rw [lines, Text.lines, List.map_map]

/-- The lines before an edit stay as they are. -/
theorem take_lines_apply (version : Int32)
    (applied : (Text.replaceRange? d.text.toList range new.toList).isSome = true) :
    (d.apply [⟨some range, new⟩] version).lines.take range.start.line.toNat =
      d.lines.take range.start.line.toNat := by
  obtain ⟨before, old, after, text, edited, start, -⟩ := exists_parts_of_edit version applied
  rw [lines_eq, lines_eq, text, edited, ← start, List.append_assoc, List.append_assoc,
    ← List.map_take, ← List.map_take, Text.take_rawLines_append, Text.take_rawLines_append]

/-- The lines behind an edit are the same, at their new place. -/
theorem drop_lines_apply (version : Int32)
    (applied : (Text.replaceRange? d.text.toList range new.toList).isSome = true) :
    (d.apply [⟨some range, new⟩] version).lines.drop
        (range.start.line.toNat + new.toList.count '\n' + 1) =
      d.lines.drop (range.stop.line.toNat + 1) := by
  obtain ⟨before, old, after, text, edited, start, stop⟩ := exists_parts_of_edit version applied
  rw [lines_eq, lines_eq, text, edited, ← start, ← stop, ← List.count_append, ← List.map_drop,
    ← List.map_drop, Text.drop_rawLines_append, Text.drop_rawLines_append]

theorem lineCount_eq (d : Document) : d.lineCount = d.text.toList.count '\n' + 1 := by
  rw [lineCount, lines_eq, List.length_map, Text.length_rawLines]

/-- What an edit that is made does to the lines of a document, if it starts on line `a` and ends on
line `b`: the `b - a` line feeds between the two are gone, those of the new text have come. The
lines before `a` are the same, and so are those behind `b`, which have moved by the difference. -/
theorem lines_of_edit (d : Document) (range : Range) (new : String) (version : Int32)
    (applied : (Text.replaceRange? d.text.toList range new.toList).isSome = true) :
    let a := range.start.line.toNat
    let b := range.stop.line.toNat
    let k := new.toList.count '\n'
    let edited := d.apply [⟨some range, new⟩] version
    a ≤ b ∧ b < d.lineCount ∧ edited.lineCount = d.lineCount - (b - a) + k ∧
      (∀ i < a, edited.lines[i]? = d.lines[i]?) ∧
      ∀ i > b, edited.lines[i - (b - a) + k]? = d.lines[i]? := by
  intro a b k edited
  obtain ⟨before, old, after, text, result, start, stop⟩ := exists_parts_of_edit version applied
  have ordered : a ≤ b := by
    rw [List.count_append] at stop
    omega
  have size : d.lineCount = b + after.count '\n' + 1 := by
    rw [lineCount_eq, text, List.count_append, stop]
  have newSize : edited.lineCount = a + k + after.count '\n' + 1 := by
    rw [lineCount_eq, result, List.count_append, List.count_append, start]
  refine ⟨ordered, by omega, by omega, ?_, ?_⟩
  · intro i early
    rw [← List.getElem?_take_of_lt early, take_lines_apply version applied,
      List.getElem?_take_of_lt early]
  · intro i late
    have place : i - (b - a) + k = a + k + 1 + (i - (b + 1)) := by omega
    have oldPlace : i = b + 1 + (i - (b + 1)) := by omega
    rw [place, ← List.getElem?_drop, drop_lines_apply version applied, List.getElem?_drop,
      ← oldPlace]

/-- Four lines with line endings of both kinds, the last one empty. -/
def verses : Document :=
  ⟨⟨"untitled", none, "verses", none, none⟩, 1, "é\r\n𝄞b\nc\r\n"⟩

/-- An edit from the end of the first line into the second puts in a line ending of its own. -/
theorem lines_of_edit_verses :
    let edited := verses.apply [⟨some ⟨⟨0, 1⟩, ⟨1, 2⟩⟩, "x\r\ny\n"⟩] 2
    edited.lineCount = 5 ∧ verses.lines[2]? = some "c" ∧ edited.lines[3]? = some "c" := by
  intro edited
  have count : verses.lineCount = 4 := by decide
  have third : verses.lines[2]? = some "c" := by decide
  obtain ⟨-, -, newCount, -, moved⟩ :=
    lines_of_edit verses ⟨⟨0, 1⟩, ⟨1, 2⟩⟩ "x\r\ny\n" 2 (by decide)
  rw [count] at newCount
  exact ⟨newCount, third, (moved 2 (by decide)).trans third⟩

end Document

namespace Range

/-- A range has both of its lines behind a line. -/
structure Behind (line : UInt32) (r : Range) : Prop where
  start : line < r.start.line
  stop : line < r.stop.line

/-- The lines of a range are those of another one, moved down by a number of lines or up. -/
structure MovedBy (distance : Int) (r moved : Range) : Prop where
  start : (moved.start.line.toNat : Int) = r.start.line.toNat + distance
  stop : (moved.stop.line.toNat : Int) = r.stop.line.toNat + distance

end Range

namespace Symbol

/-- All lines of a symbol are behind a line. -/
structure Behind (line : UInt32) (s : Symbol) : Prop where
  full : s.fullRange.Behind line
  signature : s.signatureRange.Behind line

/-- A symbol stands where another one would be if all its lines were moved. -/
structure MovedBy (distance : Int) (s moved : Symbol) : Prop where
  full : s.fullRange.MovedBy distance moved.fullRange
  signature : s.signatureRange.MovedBy distance moved.signatureRange

theorem MovedBy.signatureEndLine {distance : Int} {s moved : Symbol}
    (h : MovedBy distance s moved) :
    (moved.signatureEndLine.toNat : Int) = s.signatureEndLine.toNat + distance := by
  have start := h.full.start
  have stop := h.signature.stop
  rw [toNat_signatureEndLine, toNat_signatureEndLine]
  omega

/-- The lines of code of a symbol do not change by an edit of other lines: neither if the symbol
ends before the first line of the edit, nor if it starts behind the last line, where it is counted
with its lines moved by the line feeds that came in, less those that went. -/
theorem loc_of_edit_elsewhere (d : Document) (range : Range) (new : String) (version : Int32)
    (s : Symbol)
    (applied : (Text.replaceRange? d.text.toList range new.toList).isSome = true) :
    (s.fullRange.stop.line < range.start.line → s.signatureRange.stop.line < range.start.line →
      s.loc (d.apply [⟨some range, new⟩] version).lines = s.loc d.lines) ∧
    ∀ moved : Symbol, s.Behind range.stop.line →
      s.MovedBy (new.toList.count '\n' - (range.stop.line.toNat - range.start.line.toNat)) moved →
      moved.loc (d.apply [⟨some range, new⟩] version).lines = s.loc d.lines := by
  constructor
  · intro full _
    have kept := Document.take_lines_apply version applied
    rw [loc, loc, countLoc, countLoc,
      bodyLines_of_take kept (UInt32.lt_iff_toNat_lt.mp full)]
  · intro moved behind shift
    have kept := Document.drop_lines_apply version applied
    have full := UInt32.lt_iff_toNat_lt.mp behind.full.start
    have signature := shift.signatureEndLine
    have stop := shift.full.stop
    have far : range.stop.line.toNat + 1 ≤ s.signatureEndLine.toNat := by
      rw [toNat_signatureEndLine]
      omega
    rw [loc, loc, countLoc, countLoc, bodyLines_of_drop kept far (by omega) (by omega)]

/-- A function of three lines behind a comment of two. -/
def noted : Document :=
  ⟨⟨"untitled", none, "noted.rs", none, none⟩, 1,
    "// é\r\n// 𝄞\r\nfn f() \x7b\r\n  g();\r\n\x7d\r\n"⟩

def notedSymbol : Symbol :=
  ⟨"f", .function, ⟨⟨2, 0⟩, ⟨4, 1⟩⟩, ⟨⟨2, 3⟩, ⟨2, 6⟩⟩, []⟩

def notedMoved : Symbol :=
  ⟨"f", .function, ⟨⟨1, 0⟩, ⟨3, 1⟩⟩, ⟨⟨1, 3⟩, ⟨1, 6⟩⟩, []⟩

/-- One edit puts a line behind the function, another joins the two lines of the comment. -/
theorem loc_of_edit_elsewhere_noted :
    notedSymbol.loc noted.lines = 2 ∧
      notedSymbol.loc (noted.apply [⟨some ⟨⟨5, 0⟩, ⟨5, 0⟩⟩, "h();\n"⟩] 2).lines = 2 ∧
      notedMoved.loc (noted.apply [⟨some ⟨⟨0, 4⟩, ⟨1, 2⟩⟩, ","⟩] 2).lines = 2 := by
  have count : notedSymbol.loc noted.lines = 2 := by decide
  have behind := (loc_of_edit_elsewhere noted ⟨⟨5, 0⟩, ⟨5, 0⟩⟩ "h();\n" 2 notedSymbol
    (by decide)).1 (by decide) (by decide)
  have before := (loc_of_edit_elsewhere noted ⟨⟨0, 4⟩, ⟨1, 2⟩⟩ "," 2 notedSymbol
    (by decide)).2 notedMoved ⟨⟨by decide, by decide⟩, ⟨by decide, by decide⟩⟩
    ⟨⟨by decide, by decide⟩, ⟨by decide, by decide⟩⟩
  exact ⟨count, behind.trans count, before.trans count⟩

end Symbol

end FunctionMeter
