/-!
# Text

Editors count columns in UTF-16 code units, stored text is addressed in UTF-8 bytes, and the
program's own text is a list of characters. This module relates the three: the size of a character
in either encoding, cutting text at a byte offset, and turning a column into a byte offset.

Text is divided at line feeds only, so a final line feed is followed by one more, empty, line. The
content of a line is the line without one carriage return at its end. Which characters count as
blank at the two ends of a line is the Unicode property White_Space, so a line of ideographic spaces
is blank and a line holding a zero-width space is not.
-/

namespace FunctionMeter.Text

/-! ## Measures -/

/-- How many UTF-16 code units a character takes: two beyond the basic plane. -/
def units (c : Char) : Nat := if c.toNat < 0x10000 then 1 else 2

def unitCount : List Char → Nat
  | [] => 0
  | c :: cs => units c + unitCount cs

def byteCount : List Char → Nat
  | [] => 0
  | c :: cs => c.utf8Size + byteCount cs

/-- Cuts text at a byte offset; there is no cut inside a character or beyond the end. -/
def splitAtByte? : List Char → Nat → Option (List Char × List Char)
  | cs, 0 => some ([], cs)
  | [], _ + 1 => none
  | c :: cs, n + 1 =>
    if c.utf8Size ≤ n + 1 then
      (splitAtByte? cs (n + 1 - c.utf8Size)).map fun (before, after) => (c :: before, after)
    else none

/-- The byte offset of the first character boundary at or behind a UTF-16 column. A column inside
a surrogate pair therefore gives the boundary behind the pair. -/
def byteOfColumn? : List Char → Nat → Option Nat
  | _, 0 => some 0
  | [], _ + 1 => none
  | c :: cs, n + 1 => (byteOfColumn? cs (n + 1 - units c)).map (c.utf8Size + ·)

/-- The UTF-16 column of a byte offset, if the offset is a character boundary. -/
def columnOfByte? (cs : List Char) (offset : Nat) : Option Nat :=
  (splitAtByte? cs offset).map fun (before, _) => unitCount before

/-! ## Lines -/

/-- The pieces between line feeds; there is always at least one. -/
def rawLines (cs : List Char) : List (List Char) := cs.splitOn '\n'

/-- The byte offset at which a line starts: each line before it takes one byte more than its
characters, for its line feed. -/
def startOfLine : List (List Char) → Nat → Nat
  | _, 0 => 0
  | [], _ + 1 => 0
  | row :: rows, line + 1 => byteCount row + 1 + startOfLine rows line

/-- Removes one carriage return from the end of a line. -/
def chomp (line : List Char) : List Char :=
  if line.getLast? = some '\r' then line.dropLast else line

/-- The lines of a text without their line endings. -/
def lines (cs : List Char) : List (List Char) := (rawLines cs).map chomp

/-! ## Blank characters -/

/-- The characters with the Unicode property White_Space. -/
def isBlank (c : Char) : Bool :=
  let n := c.toNat
  (0x9 ≤ n && n ≤ 0xD) || n == 0x20 || n == 0x85 || n == 0xA0 || n == 0x1680 ||
    (0x2000 ≤ n && n ≤ 0x200A) || n == 0x2028 || n == 0x2029 || n == 0x202F || n == 0x205F ||
    n == 0x3000

def trimStart (cs : List Char) : List Char := cs.dropWhile isBlank

def trimEnd (cs : List Char) : List Char := (cs.reverse.dropWhile isBlank).reverse

/-- Removes blank characters at both ends. -/
def trim (cs : List Char) : List Char := trimEnd (trimStart cs)

end FunctionMeter.Text
