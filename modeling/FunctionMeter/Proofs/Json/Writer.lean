import FunctionMeter.Json.Decode
import FunctionMeter.Json.Writer
import FunctionMeter.Proofs.Json.Grammar
import Mathlib

/-!
# What is written can be read

Both layouts of a value are texts of the grammar, so that the reader gives the value back from either
of them. A value may hold only numbers that the grammar has: every word of 64 bits is among them, and
numbers that are no integers are kept as they are spelled.
-/

namespace FunctionMeter.Json

/-! ## Strings and integers -/

theorem hexDigit?_hexLower (n : Nat) : hexDigit? (hexLower n) = some (n % 16) := by
  have digits : ∀ k < 16, hexDigit? (Nat.digitChar k) = some k := by decide
  exact digits (n % 16) (Nat.mod_lt n (by decide))

theorem hexQuad?_control {n : Nat} (control : n < 0x20) :
    hexQuad? '0' '0' (hexLower (n / 16)) (hexLower n) = some n := by
  have zero : hexDigit? '0' = some 0 := by decide
  simp only [hexQuad?, zero, hexDigit?_hexLower, Option.bind_eq_bind, Option.bind_some]
  congr 1
  omega

theorem spellsChar_escapeChar (c : Char) : SpellsChar c (escapeChar c) := by
  unfold escapeChar
  split
  case h_8 =>
    split
    · rename_i control
      have whole : isHighSurrogate c.toNat = false ∧ isLowSurrogate c.toNat = false := by
        simp only [isHighSurrogate, isLowSurrogate, Bool.and_eq_false_iff, decide_eq_false_iff_not]
        omega
      have spelled := SpellsChar.unit (hexQuad?_control control) whole
      rwa [Char.ofNat_toNat] at spelled
    · rename_i visible
      exact .plain (Nat.not_lt.mp visible) ‹_› ‹_›
  all_goals exact .letter (by decide)

theorem spellsText_escape (s : List Char) : SpellsText s (s.flatMap escapeChar) := by
  induction s with
  | nil => exact .nil
  | cons c s ih => exact .cons (spellsChar_escapeChar c) ih

theorem spells_writeString (s : String) : Spells (.str s) (writeString s) :=
  .string (spellsText_escape s.toList)

theorem digitsValue_eq_ofDigitChars (ds : List Char) :
    digitsValue ds = Nat.ofDigitChars 10 ds 0 := by
  simp only [digitsValue, Nat.ofDigitChars_eq_foldl, Nat.mul_comm]

theorem digitsValue_toDigits (n : Nat) : digitsValue (Nat.toDigits 10 n) = n := by
  rw [digitsValue_eq_ofDigitChars, Nat.ofDigitChars_ten_toDigits]

theorem exists_toDigits_cons {n : Nat} (positive : 0 < n) :
    ∃ d ds, Nat.toDigits 10 n = d :: ds ∧ d ≠ '0' := by
  induction n using Nat.strongRecOn with
  | ind n ih =>
      by_cases small : n < 10
      · rw [Nat.toDigits_of_lt_base small]
        exact ⟨_, [], rfl, fun zero => positive.ne' (Nat.digitChar_eq_zero.mp zero)⟩
      · obtain ⟨d, ds, same, lead⟩ := ih (n / 10) (by omega) (by omega)
        rw [Nat.toDigits_of_base_le (by decide) (Nat.not_lt.mp small), same]
        exact ⟨d, _, rfl, lead⟩

theorem wholeDigits_toDigits (n : Nat) : WholeDigits (Nat.toDigits 10 n) := by
  have digits : ∀ c ∈ Nat.toDigits 10 n, c.isDigit = true := fun c inside =>
    Nat.isDigit_of_mem_toDigits (by decide) (by decide) inside
  rcases Nat.eq_zero_or_pos n with rfl | positive
  · exact .zero
  · obtain ⟨d, ds, same, lead⟩ := exists_toDigits_cons positive
    rw [same] at digits ⊢
    exact .positive lead digits

/-- Digits behind a number make it no smaller. -/
theorem le_foldl_digits (n : Nat) (ds : List Char) :
    n ≤ ds.foldl (fun n c => n * 10 + (c.toNat - '0'.toNat)) n := by
  induction ds generalizing n with
  | nil => exact Nat.le_refl n
  | cons d ds ih =>
      have later := ih (n * 10 + (d.toNat - '0'.toNat))
      rw [List.foldl_cons]
      omega

/-- No digit of a word is left off. -/
theorem appendDigits_of_lt {n : Nat} {ds : List Char}
    (word : ds.foldl (fun n c => n * 10 + (c.toNat - '0'.toNat)) n < 0x10000000000000000) :
    appendDigits n ds = (ds.foldl (fun n c => n * 10 + (c.toNat - '0'.toNat)) n, 0) := by
  induction ds generalizing n with
  | nil => rfl
  | cons d ds ih =>
      rw [List.foldl_cons] at word ⊢
      have next := (le_foldl_digits (n * 10 + (d.toNat - '0'.toNat)) ds).trans_lt word
      rw [appendDigits, if_pos next, ih word]

theorem toDouble_le (n : Nat) : toDouble n ≤ 2 * n := by
  obtain rfl | positive := Nat.eq_zero_or_pos n
  · decide
  · have unit : Nat.pow 2 (n.log2 - 52) ≤ n :=
      (Nat.pow_le_pow_right (by decide) (Nat.sub_le _ _)).trans
        (Nat.log2_self_le positive.ne')
    have kept := Nat.div_mul_le_self n (Nat.pow 2 (n.log2 - 52))
    rw [toDouble]
    split
    · rw [Nat.add_mul]
      omega
    · omega

theorem isFinite_of_lt {n : Nat} (word : n < 0x10000000000000000) : isFinite n 0 = true := by
  have one : toDouble (Nat.pow 10 (0 : Int).toNat) = 1 := by decide
  have bound : 2 * 0x10000000000000000 ≤ Nat.pow 2 1024 - Nat.pow 2 970 := by decide +kernel
  have double := toDouble_le n
  rw [isFinite]
  split_ifs with trivial large
  · rfl
  · cases large
  · rw [one, Nat.mul_one, decide_eq_true_iff]
    exact (double.trans_lt (Nat.mul_lt_mul_of_pos_left word (by decide))).trans_le bound

/-- A word of 64 bits fits a double. -/
theorem fitsDouble_toDigits {n : Nat} (word : n < 0x10000000000000000) :
    fitsDouble (Nat.toDigits 10 n) [] 0 = true := by
  have value : (Nat.toDigits 10 n).foldl (fun n c => n * 10 + (c.toNat - '0'.toNat)) 0 = n :=
    digitsValue_toDigits n
  have leading : appendDigits 0 (Nat.toDigits 10 n) = (n, 0) := by
    rw [appendDigits_of_lt (value.trans_lt word), value]
  rw [fitsDouble, leading]
  exact isFinite_of_lt word

theorem spellsNumber_writeInt {i : Int} (word : i.natAbs < 0x10000000000000000) :
    SpellsNumber (.int i) (writeInt i) := by
  have finite := fitsDouble_toDigits word
  rw [writeInt]
  split
  · rename_i negative
    have nonzero : digitsValue (Nat.toDigits 10 i.natAbs) ≠ 0 := by
      rw [digitsValue_toDigits]
      omega
    have spelled := SpellsNumber.negative (wholeDigits_toDigits i.natAbs) nonzero finite
    rwa [digitsValue_toDigits, ← Int.eq_neg_natAbs_of_nonpos negative.le] at spelled
  · rename_i positive
    have spelled := SpellsNumber.natural (wholeDigits_toDigits i.natAbs) finite
    rwa [digitsValue_toDigits, Int.natAbs_of_nonneg (Int.not_lt.mp positive)] at spelled

/-! ## Values -/

mutual

/-- Every number is spelled as the grammar has it. -/
def Writable : Json → Prop
  | .int i => SpellsNumber (.int i) (writeInt i)
  | .real literal => SpellsNumber (.real literal) literal.toList
  | .arr items => WritableItems items
  | .obj members => WritableMembers members
  | .null | .bool _ | .str _ => True

def WritableItems : List Json → Prop
  | [] => True
  | item :: rest => Writable item ∧ WritableItems rest

def WritableMembers : List (String × Json) → Prop
  | [] => True
  | (_, value) :: rest => Writable value ∧ WritableMembers rest

end

theorem blank_nil : Blank [] := nofun

theorem blank_space : Blank [' '] := by
  rintro c (_ | ⟨_, ⟨⟩⟩)
  rfl

theorem blank_indent (level : Nat) : Blank (indent level) := by
  intro c inside
  rcases List.mem_cons.mp inside with rfl | space
  · rfl
  · rw [List.eq_of_mem_replicate space]
    rfl

-- A member is written up to the end of its value, in either layout.
theorem spellsMember_write (name : String) {value : Json} {ws gap cs ws' : List Char}
    (before : Blank ws) (between : Blank gap) (spelled : Spells value cs) (behind : Blank ws') :
    SpellsMember (name, value) (ws ++ writeString name ++ ':' :: gap ++ cs ++ ws') := by
  have pair := SpellsMember.pair before (spellsText_escape name.toList) blank_nil between spelled
    behind
  simpa [writeString] using pair

mutual

theorem spells_writeCompact (j : Json) (writable : j.Writable) : Spells j (writeCompact j) := by
  cases j with
  | null => exact .null
  | bool value =>
      cases value with
      | false => exact .no
      | true => exact .yes
  | int i => exact .number writable
  | real literal => exact .number writable
  | str s => exact spells_writeString s
  | arr items =>
      by_cases empty : items = []
      · subst empty
        exact .emptyArray blank_nil
      · exact .array (spells_writeCompactItems items empty writable)
  | obj members =>
      by_cases empty : members = []
      · subst empty
        exact .emptyObject blank_nil
      · exact .object (spells_writeCompactMembers members empty writable)

theorem spells_writeCompactItems (items : List Json) (any : items ≠ [])
    (writable : WritableItems items) : SpellsItems items (writeCompactItems items) := by
  cases items with
  | nil => exact absurd rfl any
  | cons item rest =>
      have first := spells_writeCompact item writable.1
      by_cases last : rest = []
      · subst last
        rw [writeCompactItems, ← List.append_nil (writeCompact item)]
        exact .last blank_nil first blank_nil
      · rw [writeCompactItems]
        exact .more blank_nil first blank_nil (spells_writeCompactItems rest last writable.2)
        exact last

theorem spells_writeCompactMembers (members : List (String × Json)) (any : members ≠ [])
    (writable : WritableMembers members) :
    SpellsMembers members (writeCompactMembers members) := by
  cases members with
  | nil => exact absurd rfl any
  | cons member rest =>
      have first := spells_writeCompact member.2 writable.1
      have pair := spellsMember_write member.1 blank_nil blank_nil first blank_nil
      by_cases last : rest = []
      · subst last
        rw [writeCompactMembers]
        exact .last (by simpa using pair)
      · rw [writeCompactMembers]
        · have others := spells_writeCompactMembers rest last writable.2
          simpa using SpellsMembers.more pair others
        · exact last

end

-- The closing bracket stands on a line of its own, so there may be white space behind the last item.
mutual

theorem spells_writePretty (j : Json) (level : Nat) (writable : j.Writable) :
    Spells j (writePretty level j) := by
  cases j with
  | null => exact .null
  | bool value =>
      cases value with
      | false => exact .no
      | true => exact .yes
  | int i => exact .number writable
  | real literal => exact .number writable
  | str s => exact spells_writeString s
  | arr items =>
      cases items with
      | nil => exact .emptyArray blank_nil
      | cons item rest =>
          exact .array (spells_writePrettyItems (item :: rest) (level + 1) (blank_indent level)
            (List.cons_ne_nil item rest) writable)
  | obj members =>
      cases members with
      | nil => exact .emptyObject blank_nil
      | cons member rest =>
          exact .object (spells_writePrettyMembers (member :: rest) (level + 1)
            (blank_indent level) (List.cons_ne_nil member rest) writable)

theorem spells_writePrettyItems (items : List Json) (level : Nat) {ws : List Char}
    (blank : Blank ws) (any : items ≠ []) (writable : WritableItems items) :
    SpellsItems items (writePrettyItems level items ++ ws) := by
  cases items with
  | nil => exact absurd rfl any
  | cons item rest =>
      have first := spells_writePretty item level writable.1
      by_cases last : rest = []
      · subst last
        rw [writePrettyItems, List.append_assoc]
        exact .last (blank_indent level) first blank
      · have others := spells_writePrettyItems rest level blank last writable.2
        rw [writePrettyItems]
        · simpa using SpellsItems.more (blank_indent level) first blank_nil others
        · exact last

theorem spells_writePrettyMembers (members : List (String × Json)) (level : Nat) {ws : List Char}
    (blank : Blank ws) (any : members ≠ []) (writable : WritableMembers members) :
    SpellsMembers members (writePrettyMembers level members ++ ws) := by
  cases members with
  | nil => exact absurd rfl any
  | cons member rest =>
      have first := spells_writePretty member.2 level writable.1
      by_cases last : rest = []
      · subst last
        rw [writePrettyMembers]
        have pair := spellsMember_write member.1 (blank_indent level) blank_space first blank
        exact .last (by simpa using pair)
      · have pair := spellsMember_write member.1 (blank_indent level) blank_space first blank_nil
        have others := spells_writePrettyMembers rest level blank last writable.2
        rw [writePrettyMembers]
        · simpa using SpellsMembers.more pair others
        · exact last

end

/-! ## Round trips -/

/-- The value can be written, and a reader that goes this deep can read it. -/
structure Fits (j : Json) (bound : Nat) : Prop where
  writable : j.Writable
  nests : j.depth ≤ bound

section

variable {j : Json} {bound : Nat}

theorem Fits.mono {deeper : Nat} (fits : j.Fits bound) (le : bound ≤ deeper) : j.Fits deeper :=
  ⟨fits.writable, fits.nests.trans le⟩

@[simp] theorem fits_str (s : String) : Fits (.str s) bound := ⟨trivial, Nat.zero_le bound⟩

theorem fits_ofNat {n : Nat} (word : n < 0x10000000000000000) : Fits (ofNat n) bound :=
  ⟨spellsNumber_writeInt word, Nat.zero_le bound⟩

@[simp] theorem fits_ofWord (n : UInt32) : Fits (ofWord n) bound :=
  fits_ofNat (n.toNat_lt.trans (by decide))

@[simp] theorem fits_ofInt32 (n : Int32) : Fits (ofInt32 n) bound := by
  have least := n.le_toInt
  have greatest := n.toInt_lt
  exact ⟨spellsNumber_writeInt (by omega), Nat.zero_le bound⟩

/-- An array or an object takes one level more than what is in it. -/
theorem fits_iff_exists {P : Nat → Prop} (deep : 0 < j.depth)
    (each : ∀ inner, j.Fits (inner + 1) ↔ P inner) :
    j.Fits bound ↔ ∃ inner, bound = inner + 1 ∧ P inner := by
  constructor
  · intro fits
    obtain ⟨inner, rfl⟩ := Nat.exists_eq_succ_of_ne_zero (deep.trans_le fits.nests).ne'
    exact ⟨inner, rfl, (each inner).mp fits⟩
  · rintro ⟨inner, rfl, inside⟩
    exact (each inner).mpr inside

theorem fits_arr_iff {items : List Json} :
    Fits (.arr items) bound ↔ ∃ inner, bound = inner + 1 ∧ ∀ item ∈ items, item.Fits inner := by
  refine fits_iff_exists (Nat.succ_pos _) fun inner => ?_
  induction items with
  | nil => exact ⟨nofun, fun _ => ⟨trivial, Nat.succ_le_succ (Nat.zero_le inner)⟩⟩
  | cons item rest ih =>
      rw [List.forall_mem_cons, ← ih]
      constructor
      · rintro ⟨⟨first, others⟩, nests⟩
        obtain ⟨less, fewer⟩ := Nat.max_le.mp (Nat.le_of_succ_le_succ nests)
        exact ⟨⟨first, less⟩, others, Nat.succ_le_succ fewer⟩
      · rintro ⟨first, others⟩
        have nests := Nat.max_le.mpr ⟨first.nests, Nat.le_of_succ_le_succ others.nests⟩
        exact ⟨⟨first.writable, others.writable⟩, Nat.succ_le_succ nests⟩

theorem fits_obj_iff {members : List (String × Json)} :
    Fits (.obj members) bound ↔ ∃ inner, bound = inner + 1 ∧ ∀ m ∈ members, m.2.Fits inner := by
  refine fits_iff_exists (Nat.succ_pos _) fun inner => ?_
  induction members with
  | nil => exact ⟨nofun, fun _ => ⟨trivial, Nat.succ_le_succ (Nat.zero_le inner)⟩⟩
  | cons member rest ih =>
      rw [List.forall_mem_cons, ← ih]
      constructor
      · rintro ⟨⟨first, others⟩, nests⟩
        obtain ⟨less, fewer⟩ := Nat.max_le.mp (Nat.le_of_succ_le_succ nests)
        exact ⟨⟨first, less⟩, others, Nat.succ_le_succ fewer⟩
      · rintro ⟨first, others⟩
        have nests := Nat.max_le.mpr ⟨first.nests, Nat.le_of_succ_le_succ others.nests⟩
        exact ⟨⟨first.writable, others.writable⟩, Nat.succ_le_succ nests⟩

theorem fits_record {members : List (String × Json)} (each : ∀ m ∈ members, m.2.Fits bound) :
    Fits (record members) (bound + 1) :=
  fits_obj_iff.mpr ⟨bound, rfl, each⟩

theorem fits_ofList {α : Type} {encode : α → Json} {items : List α}
    (each : ∀ a ∈ items, (encode a).Fits bound) : Fits (ofList encode items) (bound + 1) :=
  fits_arr_iff.mpr ⟨bound, rfl, List.forall_mem_map.mpr each⟩

theorem spelledBy_compact (writable : j.Writable) : j.SpelledBy j.compact :=
  ⟨[], writeCompact j, [], by simp [compact], blank_nil, spells_writeCompact j writable, blank_nil⟩

theorem read?_compact (fits : j.Fits bound) : read? bound j.compact = some j := by
  have spelled := spells_writeCompact j fits.writable
  simpa [compact] using read?_spells blank_nil spelled blank_nil fits.nests

theorem read?_pretty (fits : j.Fits bound) : read? bound j.pretty = some j := by
  have spelled := spells_writePretty j 0 fits.writable
  simpa [pretty] using read?_spells blank_nil spelled blank_nil fits.nests

end

end FunctionMeter.Json
