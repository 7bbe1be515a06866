import FunctionMeter.Position
import FunctionMeter.Tree.Node
import Mathlib

/-!
# The order of positions and points

Positions and points are ordered by their line first and then by what counts the line's characters.
Both orders are stated on numbers, where `omega` decides what follows from them.
-/

namespace FunctionMeter

namespace Position

variable {p q r : Position}

theorem le_iff : p.le q = true ↔ p.line.toNat < q.line.toNat ∨
    p.line.toNat = q.line.toNat ∧ p.character.toNat ≤ q.character.toNat := by
  simp only [le, Bool.or_eq_true, Bool.and_eq_true, decide_eq_true_eq, beq_iff_eq,
    UInt32.lt_iff_toNat_lt, UInt32.le_iff_toNat_le, UInt32.toNat_inj]

theorem le_refl (p : Position) : p.le p = true := le_iff.mpr (.inr ⟨rfl, Nat.le_refl _⟩)

theorem le_trans (first : p.le q = true) (second : q.le r = true) : p.le r = true := by
  rw [le_iff] at first second ⊢
  omega

theorem le_max_right (p q : Position) : q.le (p.max q) = true := by
  rw [max]
  split
  · exact le_refl q
  · rename_i behind
    rw [le_iff] at behind ⊢
    omega

theorem max_le (left : p.le r = true) (right : q.le r = true) : (p.max q).le r = true := by
  rw [max]
  split
  · exact right
  · exact left

/-- The line of a later position is no earlier. -/
theorem line_le (before : p.le q = true) : p.line ≤ q.line := by
  rw [le_iff] at before
  rw [UInt32.le_iff_toNat_le]
  omega

end Position

namespace Point

variable {p q r : Point}

theorem le_iff : p.le q = true ↔ p.row < q.row ∨ p.row = q.row ∧ p.column ≤ q.column := by
  simp only [le, Bool.or_eq_true, Bool.and_eq_true, decide_eq_true_eq, beq_iff_eq]

theorem le_refl (p : Point) : p.le p = true := le_iff.mpr (.inr ⟨rfl, Nat.le_refl _⟩)

theorem le_trans (first : p.le q = true) (second : q.le r = true) : p.le r = true := by
  rw [le_iff] at first second ⊢
  omega

end Point

end FunctionMeter
