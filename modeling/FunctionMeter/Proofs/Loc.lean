import FunctionMeter.Loc
import Mathlib

/-!
# The line count and the lines it reads

A count of body lines is kept in a word. No count is too large for it, since the last body line has
a word for its number and the line of the signature is not counted.

The body of a symbol is a stretch of the lines of its source. What stands before and behind this
stretch has no part in the count, nor has the number of its first line.
-/

namespace FunctionMeter.Symbol

theorem toNat_signatureEndLine (s : Symbol) :
    s.signatureEndLine.toNat =
      max s.signatureRange.stop.line.toNat s.fullRange.start.line.toNat := by
  rw [signatureEndLine]
  split
  · rename_i early
    exact (max_eq_right (UInt32.lt_iff_toNat_lt.mp early).le).symm
  · rename_i late
    exact (max_eq_left (UInt32.le_iff_toNat_le.mp (UInt32.not_lt.mp late))).symm

/-- Sources with the same lines up to the end of a symbol give it the same body. -/
theorem bodyLines_of_take {s : Symbol} {lines lines' : List String} {n : Nat}
    (same : lines'.take n = lines.take n) (ends : s.fullRange.stop.line.toNat < n) :
    s.bodyLines lines' = s.bodyLines lines := by
  have stretch : ∀ source : List String, s.bodyLines source =
      ((source.take n).take (s.fullRange.stop.line.toNat + 1)).drop
        (s.signatureEndLine.toNat + 1) := by
    intro source
    rw [bodyLines, List.take_take, Nat.min_eq_left ends, List.drop_take]
  rw [stretch, stretch, same]

/-- Sources with the same lines behind two places give the same body to symbols that stand equally
far behind these places. -/
theorem bodyLines_of_drop {s moved : Symbol} {lines lines' : List String} {m n : Nat}
    (same : lines'.drop n = lines.drop m) (behind : m ≤ s.signatureEndLine.toNat)
    (signature : moved.signatureEndLine.toNat + m = s.signatureEndLine.toNat + n)
    (stop : moved.fullRange.stop.line.toNat + m = s.fullRange.stop.line.toNat + n) :
    moved.bodyLines lines' = s.bodyLines lines := by
  obtain ⟨distance, far⟩ := Nat.exists_eq_add_of_le behind
  have first : s.signatureEndLine.toNat + 1 = m + (distance + 1) := by omega
  have firstMoved : moved.signatureEndLine.toNat + 1 = n + (distance + 1) := by omega
  have length : moved.fullRange.stop.line.toNat + 1 - (n + (distance + 1)) =
      s.fullRange.stop.line.toNat + 1 - (m + (distance + 1)) := by omega
  have tail : lines'.drop (n + (distance + 1)) = lines.drop (m + (distance + 1)) := by
    rw [← List.drop_drop, same, List.drop_drop]
  rw [bodyLines, bodyLines, first, firstMoved, length, tail]

theorem countLoc_le (lines : List String) (s : Symbol) :
    s.countLoc lines ≤ s.fullRange.stop.line.toNat := by
  calc s.countLoc lines ≤ (s.bodyLines lines).length := List.countP_le_length
    _ ≤ s.fullRange.stop.line.toNat + 1 - (s.signatureEndLine.toNat + 1) := by
      rw [bodyLines, List.length_take]
      exact Nat.min_le_left _ _
    _ ≤ s.fullRange.stop.line.toNat := by omega

/-- The word for the lines of code of a symbol is their number. -/
theorem toNat_loc (lines : List String) (s : Symbol) :
    (s.loc lines).toNat = s.countLoc lines := by
  have bound := countLoc_le lines s
  have word := s.fullRange.stop.line.toNat_lt
  rw [loc, UInt32.toNat_ofNat', Nat.mod_eq_of_lt (by omega)]

end FunctionMeter.Symbol
