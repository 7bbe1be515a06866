import FunctionMeter.Proofs.Loc
import Mathlib

/-!
# No line is counted twice

The body of a symbol is an interval of line numbers: it is open at the last line of the signature
and closed at the last line of the symbol, so it is empty if the symbol ends with its signature or
before it. The lines of code of a symbol are as many as the line numbers in its body that lead to a
counting line. From this, bodies that do not overlap share no line of code, and what lies inside a
body has no line of code that the body does not have.

The count is also made with words alone, one line after the other. Neither the line number nor the
count ever leaves the range of a word there, also if the body ends with the last number that a word
can hold.
-/

namespace FunctionMeter

namespace Text

/-- Whether a line number leads to a line that counts. -/
def countsAt (lines : List String) (i : Nat) : Bool :=
  lines[i]?.any fun line => !isIgnorable line.toList

/-- The counting lines among `n` lines from line `first` on, by their numbers. -/
theorem countP_take_drop (lines : List String) (first n : Nat) :
    ((lines.drop first).take n).countP (fun line => !isIgnorable line.toList) =
      ((Finset.Ico first (first + n)).filter (countsAt lines ·)).card := by
  induction n with
  | zero => simp
  | succ n ih =>
      have last : Finset.Ico first (first + (n + 1)) =
          insert (first + n) (Finset.Ico first (first + n)) := by
        ext i
        simp only [Finset.mem_Ico, Finset.mem_insert]
        omega
      have new : first + n ∉ (Finset.Ico first (first + n)).filter (countsAt lines ·) := by
        simp
      rw [List.take_add_one, List.countP_append, ih, List.getElem?_drop, last, Finset.filter_insert]
      cases found : lines[first + n]? with
      | none => simp [countsAt, found]
      | some line =>
          cases ignored : isIgnorable line.toList with
          | true => simp [countsAt, found, ignored]
          | false =>
              have counts : countsAt lines (first + n) = true := by simp [countsAt, found, ignored]
              rw [if_pos counts, Finset.card_insert_of_notMem new]
              simp [ignored]

/-- The first line of an interval counts or does not, and the others follow. -/
theorem card_countsAt_first (lines : List String) {first last : Nat} (nonempty : first < last) :
    ((Finset.Ico first last).filter (countsAt lines ·)).card =
      (if countsAt lines first then 1 else 0) +
        ((Finset.Ico (first + 1) last).filter (countsAt lines ·)).card := by
  rw [← Finset.insert_Ico_add_one_left_eq_Ico nonempty, Finset.filter_insert]
  split
  · rw [Finset.card_insert_of_notMem (by simp), Nat.add_comm]
  · rw [Nat.zero_add]

end Text

namespace Symbol

open Text (countsAt)

/-- The line numbers behind the signature of a symbol up to its last line. -/
def body (s : Symbol) : Finset Nat :=
  Finset.Ioc s.signatureEndLine.toNat s.fullRange.stop.line.toNat

theorem countLoc_eq_card (lines : List String) (s : Symbol) :
    s.countLoc lines = (s.body.filter (countsAt lines ·)).card := by
  have interval : s.body = Finset.Ico (s.signatureEndLine.toNat + 1)
      (s.signatureEndLine.toNat + 1 +
        (s.fullRange.stop.line.toNat + 1 - (s.signatureEndLine.toNat + 1))) := by
    ext i
    simp only [body, Finset.mem_Ioc, Finset.mem_Ico]
    omega
  rw [countLoc, bodyLines, interval]
  exact Text.countP_take_drop lines _ _

/-- Bodies that do not overlap have together no more lines of code than any lines around them. -/
theorem sum_countLoc_le (lines : List String) {parts : List Symbol} {around : Finset Nat}
    (apart : parts.Pairwise fun s t => Disjoint s.body t.body)
    (inside : ∀ s ∈ parts, s.body ⊆ around) :
    (parts.map (countLoc lines)).sum ≤ (around.filter (countsAt lines ·)).card := by
  -- The lines around the others are those that the first body leaves over.
  induction parts generalizing around with
  | nil => exact Nat.zero_le _
  | cons s parts ih =>
      obtain ⟨fromFirst, apart⟩ := List.pairwise_cons.mp apart
      obtain ⟨insideFirst, inside⟩ := List.forall_mem_cons.mp inside
      have rest : ∀ t ∈ parts, t.body ⊆ around \ s.body := fun t member =>
        Finset.subset_sdiff.mpr ⟨inside t member, (fromFirst t member).symm⟩
      have split : ((around \ s.body).filter (countsAt lines ·)).card +
          (s.body.filter (countsAt lines ·)).card = (around.filter (countsAt lines ·)).card := by
        rw [← Finset.card_union_of_disjoint
          (Finset.disjoint_filter_filter Finset.sdiff_disjoint), ← Finset.filter_union,
          Finset.sdiff_union_of_subset insideFirst]
      have others := ih apart rest
      rw [List.map_cons, List.sum_cons, countLoc_eq_card lines s]
      omega

theorem countLoc_le_countP (lines : List String) (s : Symbol) :
    s.countLoc lines ≤ lines.countP fun line => !Text.isIgnorable line.toList :=
  ((List.take_sublist _ _).trans (List.drop_sublist _ _)).countP_le

theorem countLoc_le_card (lines : List String) (s : Symbol) :
    s.countLoc lines ≤ s.fullRange.stop.line.toNat - s.signatureEndLine.toNat := by
  rw [countLoc_eq_card, ← Nat.card_Ioc]
  exact Finset.card_filter_le _ _

/-! ## Counting with words -/

/-- The word behind a word; there is none behind the last one. -/
def next? (n : UInt32) : Option UInt32 :=
  if n.toNat + 1 < UInt32.size then some (n + 1) else none

/-- The count after one more line. -/
def tallyLine? (lines : List String) (index count : UInt32) : Option UInt32 :=
  if countsAt lines index.toNat then next? count else some count

/-- The count after the line at an index and `more` lines behind it. The index moves on only if
there is a line to come. -/
def tally? (lines : List String) : Nat → UInt32 → UInt32 → Option UInt32
  | 0, index, count => tallyLine? lines index count
  | more + 1, index, count => do
    let count ← tallyLine? lines index count
    let next ← next? index
    tally? lines more next count

/-- The lines of code of a symbol, counted with words line by line; nothing if a word is
missing on the way. -/
def tallyLoc? (lines : List String) (s : Symbol) : Option UInt32 :=
  if s.fullRange.stop.line ≤ s.signatureEndLine then some 0
  else do
    let first ← next? s.signatureEndLine
    tally? lines (s.fullRange.stop.line.toNat - first.toNat) first 0

theorem next?_of_lt {n : UInt32} (fits : n.toNat + 1 < UInt32.size) :
    ∃ m, next? n = some m ∧ m.toNat = n.toNat + 1 := by
  refine ⟨n + 1, if_pos fits, ?_⟩
  rw [UInt32.toNat_add]
  exact Nat.mod_eq_of_lt fits

/-- A count that is smaller than the number of the next line is still a word after this line. -/
theorem tallyLine?_eq (lines : List String) {index count : UInt32}
    (small : count.toNat < index.toNat) :
    ∃ c, tallyLine? lines index count = some c ∧
      c.toNat = count.toNat + if countsAt lines index.toNat then 1 else 0 := by
  have word := index.toNat_lt
  rw [tallyLine?]
  split
  · apply next?_of_lt
    change _ < 2 ^ 32
    omega
  · exact ⟨count, rfl, rfl⟩

/-- As the count grows by at most one with each line, it stays behind the line number. -/
theorem tally?_eq (lines : List String) {more : Nat} {index count : UInt32}
    (small : count.toNat < index.toNat) (fits : index.toNat + more < UInt32.size) :
    ∃ c, tally? lines more index count = some c ∧ c.toNat = count.toNat +
      ((Finset.Ico index.toNat (index.toNat + more + 1)).filter (countsAt lines ·)).card := by
  induction more generalizing index count with
  | zero =>
      obtain ⟨c, tallied, size⟩ := tallyLine?_eq lines small
      refine ⟨c, tallied, ?_⟩
      rw [size, Nat.add_zero, Text.card_countsAt_first lines (Nat.lt_succ_self _), Finset.Ico_self]
      rfl
  | succ more ih =>
      obtain ⟨d, tallied, size⟩ := tallyLine?_eq lines small
      obtain ⟨next, moved, step⟩ := next?_of_lt (by omega : index.toNat + 1 < UInt32.size)
      have one : (if countsAt lines index.toNat then 1 else 0) ≤ 1 := by split <;> omega
      have smallNext : d.toNat < next.toNat := by omega
      obtain ⟨c, later, total⟩ := ih smallNext (by omega)
      refine ⟨c, ?_, ?_⟩
      · rw [tally?, tallied, Option.bind_eq_bind, Option.bind_some, moved, Option.bind_some, later]
      · rw [total, size, step, Text.card_countsAt_first lines (by omega : index.toNat < _)]
        have stop : index.toNat + 1 + more + 1 = index.toNat + (more + 1) + 1 := by omega
        rw [stop, Nat.add_assoc]

/-- Counting with words never leaves their range, and gives the lines of code. -/
theorem tallyLoc?_eq (lines : List String) (s : Symbol) :
    s.tallyLoc? lines = some (s.loc lines) := by
  rw [tallyLoc?]
  split
  · rename_i empty
    have none : s.countLoc lines = 0 := by
      have bound := countLoc_le_card lines s
      have ends := UInt32.le_iff_toNat_le.mp empty
      omega
    rw [loc, none]
    rfl
  · rename_i some
    have ends := UInt32.lt_iff_toNat_lt.mp (UInt32.not_le.mp some)
    have word := s.fullRange.stop.line.toNat_lt
    have behind : s.signatureEndLine.toNat + 1 < UInt32.size := by
      change _ < 2 ^ 32
      omega
    obtain ⟨first, started, start⟩ := next?_of_lt behind
    have small : (0 : UInt32).toNat < first.toNat := by
      rw [start]
      exact Nat.succ_pos _
    have fits : first.toNat + (s.fullRange.stop.line.toNat - first.toNat) < UInt32.size := by
      change _ < 2 ^ 32
      omega
    obtain ⟨c, tallied, total⟩ := tally?_eq lines small fits
    have interval : Finset.Ico first.toNat
        (first.toNat + (s.fullRange.stop.line.toNat - first.toNat) + 1) = s.body := by
      ext i
      simp only [body, Finset.mem_Ico, Finset.mem_Ioc]
      omega
    rw [started, Option.bind_eq_bind, Option.bind_some, tallied, Option.some_inj]
    apply UInt32.toNat_inj.mp
    rw [total, interval, toNat_loc, countLoc_eq_card]
    exact Nat.zero_add _

/-- Symbols inside a symbol whose bodies do not overlap have together no more lines of code than it
has. It has no more of them than its source, and no more than its body has line numbers. All this
holds of any ranges, and counting with words never leaves their range. -/
theorem no_line_counted_twice (lines : List String) (s : Symbol) (parts : List Symbol)
    (apart : parts.Pairwise fun p q => Disjoint p.body q.body)
    (inside : ∀ p ∈ parts, p.body ⊆ s.body) :
    (parts.map fun p => (p.loc lines).toNat).sum ≤ (s.loc lines).toNat ∧
      (s.loc lines).toNat ≤ lines.countP (fun line => !Text.isIgnorable line.toList) ∧
      (s.loc lines).toNat ≤ s.fullRange.stop.line.toNat - s.signatureEndLine.toNat ∧
      s.tallyLoc? lines = some (s.loc lines) := by
  have numbers : (parts.map fun p => (p.loc lines).toNat) = parts.map (countLoc lines) :=
    List.map_congr_left fun p _ => p.toNat_loc lines
  rw [numbers, toNat_loc]
  refine ⟨?_, countLoc_le_countP lines s, countLoc_le_card lines s, tallyLoc?_eq lines s⟩
  rw [countLoc_eq_card lines s]
  exact sum_countLoc_le lines apart inside

/-- A function up to the last line that a word can name. -/
def endless : Symbol := ⟨"f", .function, ⟨⟨0, 0⟩, ⟨4294967295, 0⟩⟩, ⟨⟨0, 3⟩, ⟨0, 6⟩⟩, []⟩

/-- The second has its signature before its range, the third ends before it starts, and the last is
behind all lines. -/
def endlessParts : List Symbol :=
  [⟨"g", .function, ⟨⟨1, 2⟩, ⟨3, 3⟩⟩, ⟨⟨1, 5⟩, ⟨1, 8⟩⟩, []⟩,
   ⟨"h", .method, ⟨⟨3, 5⟩, ⟨5, 3⟩⟩, ⟨⟨0, 3⟩, ⟨0, 6⟩⟩, []⟩,
   ⟨"i", .other, ⟨⟨9, 0⟩, ⟨2, 0⟩⟩, ⟨⟨4, 0⟩, ⟨1, 0⟩⟩, []⟩,
   ⟨"j", .constructor, ⟨⟨4294967294, 0⟩, ⟨4294967295, 0⟩⟩, ⟨⟨4294967294, 0⟩, ⟨4294967294, 1⟩⟩, []⟩]

def endlessLines : List String :=
  ["def f():", "  def g():", "    a()", "    b()", "", "    # c", "  d()"]

theorem no_line_counted_twice_endless :
    endlessParts.map (fun p => (p.loc endlessLines).toNat) = [2, 0, 0, 0] ∧
      (endlessParts.map fun p => (p.loc endlessLines).toNat).sum ≤
        (endless.loc endlessLines).toNat ∧
      endless.loc endlessLines = 4 ∧
      endless.tallyLoc? endlessLines = some 4 := by
  have apart : endlessParts.Pairwise fun p q => Disjoint p.body q.body :=
    (by decide : endlessParts.Pairwise fun p q =>
      min p.fullRange.stop.line.toNat q.fullRange.stop.line.toNat ≤
        max p.signatureEndLine.toNat q.signatureEndLine.toNat).imp Finset.Ioc_disjoint_Ioc.mpr
  have inside : ∀ p ∈ endlessParts, p.body ⊆ endless.body := by
    have ends : ∀ p ∈ endlessParts, endless.signatureEndLine.toNat ≤ p.signatureEndLine.toNat ∧
        p.fullRange.stop.line.toNat ≤ endless.fullRange.stop.line.toNat := by decide
    exact fun p member => Finset.Ioc_subset_Ioc (ends p member).1 (ends p member).2
  have four : endless.loc endlessLines = 4 := by decide
  obtain ⟨sum, -, -, tallied⟩ :=
    no_line_counted_twice endlessLines endless endlessParts apart inside
  exact ⟨by decide, sum, four, four ▸ tallied⟩

end Symbol

end FunctionMeter
