import FunctionMeter.Category
import FunctionMeter.Text.Case
import Mathlib

/-!
# Small letters within ASCII

Beyond ASCII there is one character whose small form is an ASCII letter, the Kelvin sign with the
form `k`, and one whose small form begins with such a letter, the dotted capital I. So if the small
form of a text is ASCII without a `k`, then the text is ASCII too, and to bring its letters A to Z to
small ones gives the same.
-/

namespace FunctionMeter.Text

/-- An ASCII character that is the small form of ASCII characters only. -/
def IsOrdinary (c : Char) : Prop := c.toNat < 0x80 ∧ c ≠ 'k'

instance (c : Char) : Decidable (IsOrdinary c) :=
  inferInstanceAs (Decidable (c.toNat < 0x80 ∧ c ≠ 'k'))

/-- The small letters of a range are characters beyond ASCII, or its only small letter is `k`. -/
theorem beyond_of_mem_caseRanges : ∀ r ∈ caseRanges,
    r.first = r.last ∧ r.small = 'k'.toNat ∨
    0x80 ≤ r.small ∧ r.small + (r.last - r.first) < 0xD800 ∨
    0xE000 ≤ r.small ∧ r.small + (r.last - r.first) < 0x110000 := by
  decide +kernel

theorem CaseRange.small?_eq_some {r : CaseRange} {n small : Nat} (found : r.small? n = some small) :
    r.first ≤ n ∧ n ≤ r.last ∧ small = r.small + (n - r.first) := by
  rw [small?] at found
  split_ifs at found with inside
  exact ⟨inside.1, inside.2.1, (Option.some.inj found).symm⟩

/-- No small form of a character beyond ASCII consists of ordinary characters. -/
theorem exists_not_isOrdinary {c : Char} (beyond : 0x80 ≤ c.toNat) :
    ∃ d ∈ lowerChar c, ¬ IsOrdinary d := by
  rw [lowerChar, if_neg (Nat.not_lt.mpr beyond)]
  split_ifs
  · exact ⟨'\u0307', by decide, by decide⟩
  · split
    · rename_i n found
      refine ⟨Char.ofNat n, List.mem_singleton_self _, ?_⟩
      obtain ⟨r, inside, found⟩ := List.exists_of_findSome?_eq_some found
      obtain ⟨first, last, rfl⟩ := CaseRange.small?_eq_some found
      rcases beyond_of_mem_caseRanges r inside with ⟨single, kelvin⟩ | large
      · have only : c.toNat - r.first = 0 := by omega
        rw [kelvin, only]
        decide
      · have valid : (r.small + (c.toNat - r.first)).isValidChar := by
          rw [Nat.isValidChar]
          omega
        rintro ⟨ascii, -⟩
        rw [Char.toNat_ofNat, if_pos valid] at ascii
        omega
    · exact ⟨c, List.mem_singleton_self c, fun ordinary => Nat.not_lt.mpr beyond ordinary.1⟩

theorem lower_of_ascii {text : String} (ascii : ∀ c ∈ text.toList, c.toNat < 0x80) :
    lower text = Category.fold text := by
  rw [lower, Category.fold, List.map_eq_flatMap]
  congr 1
  exact List.flatMap_congr fun c inside => if_pos (ascii c inside)

theorem lower_of_isOrdinary {text : String}
    (ordinary : ∀ c ∈ (lower text).toList, IsOrdinary c) : lower text = Category.fold text := by
  apply lower_of_ascii
  intro c inside
  by_contra beyond
  obtain ⟨d, form, foreign⟩ := exists_not_isOrdinary (Nat.not_lt.mp beyond)
  apply foreign
  apply ordinary
  rw [lower, String.toList_ofList]
  exact List.mem_flatMap.mpr ⟨c, inside, form⟩

theorem toLower_of_beyond {c : Char} (beyond : 0x80 ≤ c.toNat) : c.toLower = c := by
  rw [Char.toLower, dif_neg]
  rintro ⟨-, bound⟩
  have ascii : c.toNat < 0x80 := (UInt32.le_iff_toNat_le.mp bound).trans_lt (by decide)
  exact Nat.not_lt.mpr beyond ascii

theorem ascii_of_toLower {c : Char} (ascii : c.toLower.toNat < 0x80) : c.toNat < 0x80 := by
  by_contra beyond
  rw [toLower_of_beyond (Nat.not_lt.mp beyond)] at ascii
  exact beyond ascii

end FunctionMeter.Text
