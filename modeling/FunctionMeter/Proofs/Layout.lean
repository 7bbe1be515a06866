import FunctionMeter.Document.Basic
import FunctionMeter.Metric
import FunctionMeter.Proofs.Text.Lines
import Mathlib

/-!
# Layout does not count

Whether a line counts is decided by what is left of it when the blanks at both ends are gone. Two
sources whose lines differ only in such blanks have therefore the same metrics, whatever the symbols.

A carriage return is a blank. The line endings of a text can be changed from line feeds to pairs of a
carriage return and a line feed: the lines of the document lose one carriage return each and keep
those that the text had before, which trimming takes away.
-/

namespace FunctionMeter

namespace Text

/-! ## Trimming -/

/-- A blank at the end is trimmed off. -/
theorem trim_append_blank {c : Char} (blank : isBlank c = true) (cs : List Char) :
    trim (cs ++ [c]) = trim cs := by
  have start : trimStart (cs ++ [c]) =
      if (trimStart cs).isEmpty then [] else trimStart cs ++ [c] := by
    have alone : [c].dropWhile isBlank = [] := by simp [blank]
    rw [trimStart, List.dropWhile_append, alone]
    rfl
  rw [trim, trim, start]
  split
  · rename_i empty
    rw [List.isEmpty_iff.mp empty]
  · rw [trimEnd, List.reverse_append, List.reverse_singleton, List.singleton_append,
      List.dropWhile_cons_of_pos blank, trimEnd]

/-- The carriage return that belongs to a line ending is trimmed off with the blanks. -/
theorem trim_chomp (line : List Char) : trim (chomp line) = trim line := by
  obtain ⟨ending, parts, none | one⟩ := exists_eq_chomp_append line
  · rw [none, List.append_nil] at parts
    rw [← parts]
  · rw [one] at parts
    have blank : isBlank '\r' = true := by decide
    calc trim (chomp line) = trim (chomp line ++ ['\r']) := (trim_append_blank blank _).symm
      _ = trim line := by rw [← parts]

theorem chomp_append_return (line : List Char) : chomp (line ++ ['\r']) = line := by
  rw [chomp, List.getLast?_concat, if_pos rfl, List.dropLast_concat]

/-- Lines that hold the same once they are trimmed do both count or do both not count. -/
theorem isIgnorable_of_trim {line line' : List Char} (same : trim line = trim line') :
    isIgnorable line = isIgnorable line' := by
  rw [isIgnorable, isIgnorable, same]

/-! ## Line endings -/

/-- Puts a carriage return before every line feed. -/
def withReturns (cs : List Char) : List Char :=
  cs.flatMap fun c => if c = '\n' then ['\r', '\n'] else [c]

theorem withReturns_append (before after : List Char) :
    withReturns (before ++ after) = withReturns before ++ withReturns after :=
  List.flatMap_append

theorem withReturns_of_flat {line : List Char} (flat : '\n' ∉ line) : withReturns line = line := by
  induction line with
  | nil => rfl
  | cons c line ih =>
      have other : c ≠ '\n' := fun same => flat (same ▸ List.mem_cons_self)
      have rest := ih fun inside => flat (List.mem_cons_of_mem c inside)
      rw [withReturns, List.flatMap_cons, if_neg other]
      exact congrArg (c :: ·) rest

theorem withReturns_line_feed {line : List Char} (flat : '\n' ∉ line) (rest : List Char) :
    withReturns (line ++ '\n' :: rest) = (line ++ ['\r']) ++ '\n' :: withReturns rest := by
  rw [withReturns_append, withReturns_of_flat flat, List.append_assoc]
  rfl

/-- A carriage return before every line feed changes no line but at its end. -/
theorem lines_withReturns (cs : List Char) :
    List.Forall₂ (fun line line' => trim line = trim line') (lines cs) (lines (withReturns cs)) := by
  rw [lines, lines, List.forall₂_map_left_iff, List.forall₂_map_right_iff]
  induction cs using line_induction with
  | last line flat =>
      rw [withReturns_of_flat flat, List.forall₂_same]
      intro _ _
      rfl
  | feed line rest flat ih =>
      have flatReturn : '\n' ∉ line ++ ['\r'] := by simp [flat]
      rw [withReturns_line_feed flat, rawLines_line_feed flat, rawLines_line_feed flatReturn]
      refine .cons ?_ ih
      show trim (chomp line) = trim (chomp (line ++ ['\r']))
      rw [trim_chomp, chomp_append_return]

end Text

/-! ## Sources -/

/-- Two sources have equally many lines, and these differ only in the blanks at their ends. -/
def SameLayout (lines lines' : List String) : Prop :=
  List.Forall₂ (fun line line' => Text.trim line.toList = Text.trim line'.toList) lines lines'

namespace SameLayout

variable {lines lines' : List String}

theorem bodyLines (same : SameLayout lines lines') (s : Symbol) :
    SameLayout (s.bodyLines lines) (s.bodyLines lines') :=
  List.forall₂_take _ (List.forall₂_drop _ same)

theorem countLoc (same : SameLayout lines lines') (s : Symbol) :
    s.countLoc lines = s.countLoc lines' := by
  rw [Symbol.countLoc, Symbol.countLoc, List.countP_eq_length_filter, List.countP_eq_length_filter]
  refine (List.rel_filter ?_ (same.bodyLines s)).length_eq
  intro line line' trimmed
  show (!Text.isIgnorable line.toList) = true ↔ (!Text.isIgnorable line'.toList) = true
  rw [Text.isIgnorable_of_trim trimmed]

theorem ofSymbol (same : SameLayout lines lines') :
    Metric.ofSymbol lines = Metric.ofSymbol lines' := by
  funext s
  rw [Metric.ofSymbol, Metric.ofSymbol, Symbol.loc, Symbol.loc, same.countLoc s]

/-- Measuring sees no more of a source than the metric of each symbol. -/
theorem ofSymbols (same : SameLayout lines lines') (symbols : List Symbol) :
    Metric.ofSymbols lines symbols = Metric.ofSymbols lines' symbols := by
  have step : Metric.record lines = Metric.record lines' := by
    funext table s
    rw [Metric.record, Metric.record, same.ofSymbol]
  rw [Metric.ofSymbols, Metric.ofSymbols, step]

end SameLayout

namespace Document

/-- The document whose text has a carriage return before every line feed. -/
def withReturns (d : Document) : Document :=
  { d with text := String.ofList (Text.withReturns d.text.toList) }

theorem sameLayout_withReturns (d : Document) : SameLayout d.lines d.withReturns.lines := by
  rw [SameLayout, lines, lines, List.forall₂_map_left_iff, List.forall₂_map_right_iff, withReturns]
  simpa only [String.toList_ofList] using Text.lines_withReturns d.text.toList

end Document

/-- Metrics do not depend on layout: they are the same for sources whose lines agree when they are
trimmed, and for a document and the one with a carriage return before every line feed. -/
theorem Metric.ofSymbols_ignores_layout (symbols : List Symbol) :
    (∀ lines lines' : List String, SameLayout lines lines' →
      ofSymbols lines symbols = ofSymbols lines' symbols) ∧
    ∀ d : Document, ofSymbols d.lines symbols = ofSymbols d.withReturns.lines symbols := by
  constructor
  · intro lines lines' same
    exact same.ofSymbols symbols
  · intro d
    exact d.sameLayout_withReturns.ofSymbols symbols

/-- A function on five lines with a comment in its body. -/
def layoutSymbol : Symbol :=
  ⟨"f", .function, ⟨⟨0, 0⟩, ⟨4, 1⟩⟩, ⟨⟨0, 3⟩, ⟨0, 6⟩⟩, []⟩

/-- Some line endings have a carriage return already, and one line has two. -/
def layoutDocument : Document :=
  ⟨default, 1, "def f():\r\n  a();\n\r\r\n  # b\r\nend"⟩

theorem Metric.ofSymbols_ignores_layout_indented :
    SameLayout ["def f():", "a();", "", "# b", "end"]
      ["def f():\r", "\t\ta(); \x0c", "\u3000", " # b", "\u2003end"] ∧
    (ofSymbols ["def f():\r", "\t\ta(); \x0c", "\u3000", " # b", "\u2003end"] [layoutSymbol]).map
      (·.loc) = [2] ∧
    layoutDocument.withReturns.text = "def f():\r\r\n  a();\r\n\r\r\r\n  # b\r\r\nend" ∧
    (ofSymbols layoutDocument.withReturns.lines [layoutSymbol]).map (·.loc) = [2] := by
  obtain ⟨sources, documents⟩ := ofSymbols_ignores_layout [layoutSymbol]
  have same : SameLayout ["def f():", "a();", "", "# b", "end"]
      ["def f():\r", "\t\ta(); \x0c", "\u3000", " # b", "\u2003end"] :=
    .cons (by decide) (.cons (by decide) (.cons (by decide) (.cons (by decide)
      (.cons (by decide) .nil))))
  refine ⟨same, ?_, by decide, ?_⟩
  · rw [← sources _ _ same]
    decide
  · rw [← documents]
    decide

end FunctionMeter
