import FunctionMeter.Text.Basic
import Mathlib

/-!
# Measures of text, added up

The number of bytes and the number of UTF-16 code units of a text add up over its characters. If a
text is divided in two, the sizes of its first part therefore lead back to the division: a cut at the
byte size of the first part separates the two parts, and the column at its size in code units has
the byte size as its offset. No hypothesis on the characters is needed; they may take up to four
bytes and two code units.
-/

namespace FunctionMeter.Text

@[simp] theorem byteCount_nil : byteCount [] = 0 := rfl

@[simp] theorem byteCount_cons (c : Char) (cs : List Char) :
    byteCount (c :: cs) = c.utf8Size + byteCount cs := rfl

@[simp] theorem byteCount_append (a b : List Char) :
    byteCount (a ++ b) = byteCount a + byteCount b := by
  induction a with
  | nil => rw [List.nil_append, byteCount_nil, Nat.zero_add]
  | cons c a ih => rw [List.cons_append, byteCount_cons, byteCount_cons, ih, Nat.add_assoc]

@[simp] theorem unitCount_nil : unitCount [] = 0 := rfl

@[simp] theorem unitCount_cons (c : Char) (cs : List Char) :
    unitCount (c :: cs) = units c + unitCount cs := rfl

@[simp] theorem unitCount_append (a b : List Char) :
    unitCount (a ++ b) = unitCount a + unitCount b := by
  induction a with
  | nil => rw [List.nil_append, unitCount_nil, Nat.zero_add]
  | cons c a ih => rw [List.cons_append, unitCount_cons, unitCount_cons, ih, Nat.add_assoc]

theorem units_pos (c : Char) : 0 < units c := by
  rw [units]
  split <;> decide

theorem units_le_two (c : Char) : units c ≤ 2 := by
  rw [units]
  split <;> decide

/-- Characters of two code units take four bytes. -/
theorem utf8Size_of_beyond {c : Char} (beyond : ¬ c.toNat < 0x10000) : c.utf8Size = 4 := by
  rw [Char.toNat] at beyond
  simp only [Char.utf8Size, UInt32.le_iff_toNat_le, UInt32.toNat_ofNatLT]
  rw [if_neg (by omega), if_neg (by omega), if_neg (by omega)]

theorem units_le_utf8Size (c : Char) : units c ≤ c.utf8Size := by
  rw [units]
  split
  · exact c.utf8Size_pos
  · rename_i beyond
    rw [utf8Size_of_beyond beyond]
    decide

/-- Only characters of one byte take as many code units as bytes. -/
theorem units_lt_utf8Size {c : Char} (wide : c.utf8Size ≠ 1) : units c < c.utf8Size := by
  rw [units]
  split
  · have positive := c.utf8Size_pos
    omega
  · rename_i beyond
    rw [utf8Size_of_beyond beyond]
    decide

theorem unitCount_le_byteCount (cs : List Char) : unitCount cs ≤ byteCount cs := by
  induction cs with
  | nil => rfl
  | cons c cs ih =>
      rw [unitCount_cons, byteCount_cons]
      exact Nat.add_le_add (units_le_utf8Size c) ih

theorem unitCount_eq_byteCount {cs : List Char} (single : ∀ c ∈ cs, c.utf8Size = 1) :
    unitCount cs = byteCount cs := by
  induction cs with
  | nil => rfl
  | cons c cs ih =>
      have one := single c List.mem_cons_self
      have positive := units_pos c
      have bound := units_le_utf8Size c
      have rest := ih fun d member => single d (List.mem_cons_of_mem c member)
      rw [unitCount_cons, byteCount_cons]
      omega

theorem unitCount_lt_byteCount {cs : List Char} (wide : ∃ c ∈ cs, c.utf8Size ≠ 1) :
    unitCount cs < byteCount cs := by
  obtain ⟨c, member, several⟩ := wide
  obtain ⟨before, after, rfl⟩ := List.append_of_mem member
  have own := units_lt_utf8Size several
  have first := unitCount_le_byteCount before
  have rest := unitCount_le_byteCount after
  rw [unitCount_append, byteCount_append, unitCount_cons, byteCount_cons]
  omega

theorem eq_nil_of_byteCount {cs : List Char} (empty : byteCount cs = 0) : cs = [] := by
  cases cs with
  | nil => rfl
  | cons c cs =>
      have positive := c.utf8Size_pos
      rw [byteCount_cons] at empty
      omega

/-- Of two beginnings of a text, the one with more bytes goes on where the other ends. -/
theorem exists_append_of_byteCount_le {a b c d : List Char} (same : a ++ b = c ++ d)
    (ordered : byteCount a ≤ byteCount c) : ∃ e, c = a ++ e ∧ b = e ++ d := by
  obtain ⟨e, rfl, rfl⟩ | ⟨e, rfl, rfl⟩ := List.append_eq_append_iff.mp same
  · exact ⟨e, rfl, rfl⟩
  · rw [byteCount_append] at ordered
    obtain rfl : e = [] := eq_nil_of_byteCount (by omega)
    exact ⟨[], by simp, by simp⟩

/-- Beginnings of a text with the same number of bytes are the same. -/
theorem eq_of_byteCount {a b c d : List Char} (same : a ++ b = c ++ d)
    (sizes : byteCount a = byteCount c) : a = c := by
  obtain ⟨e, rfl, -⟩ := exists_append_of_byteCount_le same sizes.le
  rw [byteCount_append] at sizes
  obtain rfl : e = [] := eq_nil_of_byteCount (by omega)
  exact (List.append_nil a).symm

/-- A cut separates a text into two parts, the first of which has the size of the offset. -/
theorem splitAtByte?_eq_some {cs a b : List Char} {n : Nat}
    (cut : splitAtByte? cs n = some (a, b)) : cs = a ++ b ∧ n = byteCount a := by
  induction cs, n using splitAtByte?.induct generalizing a b with
  | case1 cs =>
      rw [splitAtByte?] at cut
      obtain ⟨rfl, rfl⟩ := Prod.mk.inj (Option.some.inj cut)
      exact ⟨rfl, rfl⟩
  | case2 n => cases cut
  | case3 c cs n fits ih =>
      rw [splitAtByte?, if_pos fits] at cut
      obtain ⟨⟨before, after⟩, inner, same⟩ := Option.map_eq_some_iff.mp cut
      obtain ⟨rfl, rfl⟩ := Prod.mk.inj same
      obtain ⟨rfl, rest⟩ := ih inner
      refine ⟨rfl, ?_⟩
      rw [byteCount_cons]
      omega
  | case4 c cs n large =>
      rw [splitAtByte?, if_neg large] at cut
      cases cut

/-- A cut at the size of the first part separates the parts. -/
theorem splitAtByte?_append (a b : List Char) :
    splitAtByte? (a ++ b) (byteCount a) = some (a, b) := by
  induction a with
  | nil => rw [List.nil_append, byteCount_nil, splitAtByte?]
  | cons c a ih =>
      obtain ⟨n, size⟩ : ∃ n, c.utf8Size + byteCount a = n + 1 :=
        Nat.exists_eq_add_one.mpr (Nat.add_pos_left c.utf8Size_pos _)
      have fits : c.utf8Size ≤ n + 1 := by omega
      have remaining : n + 1 - c.utf8Size = byteCount a := by omega
      rw [List.cons_append, byteCount_cons, size, splitAtByte?, if_pos fits, remaining, ih,
        Option.map_some]

/-- The column behind the first part has the size of the first part as its offset. -/
theorem byteOfColumn?_append (a b : List Char) :
    byteOfColumn? (a ++ b) (unitCount a) = some (byteCount a) := by
  induction a with
  | nil => rw [List.nil_append, unitCount_nil, byteOfColumn?, byteCount_nil]
  | cons c a ih =>
      obtain ⟨n, size⟩ : ∃ n, units c + unitCount a = n + 1 :=
        Nat.exists_eq_add_one.mpr (Nat.add_pos_left (units_pos c) _)
      have remaining : n + 1 - units c = unitCount a := by omega
      rw [List.cons_append, unitCount_cons, size, byteOfColumn?, remaining, ih, Option.map_some,
        byteCount_cons]

end FunctionMeter.Text
