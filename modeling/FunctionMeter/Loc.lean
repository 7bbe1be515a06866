import FunctionMeter.Symbol
import FunctionMeter.Text.Basic

/-!
# Lines of code

A line counts unless it is blank or starts, behind its indentation, with a comment mark. The lines
of code of a symbol are the counting lines strictly behind the last line of its signature, up to
and with the last line of its full range. Lines that the source does not have do not count.
-/

namespace FunctionMeter

namespace Text

/-- The marks that make a line a comment line in most languages. -/
def commentMarks : List (List Char) :=
  [['/', '/'], ['#'], ['-', '-'], ['/', '*'], ['*'], ['*', '/']]

/-- Whether a line is left out of the count. -/
def isIgnorable (line : List Char) : Bool :=
  let content := trim line
  content.isEmpty || commentMarks.any (·.isPrefixOf content)

end Text

namespace Symbol

/-- The last line of the signature, but never before the symbol itself: some sources report
signatures that end too early. -/
def signatureEndLine (s : Symbol) : UInt32 :=
  if s.signatureRange.stop.line < s.fullRange.start.line then s.fullRange.start.line
  else s.signatureRange.stop.line

/-- The lines of a source that form the body of a symbol. -/
def bodyLines (lines : List String) (s : Symbol) : List String :=
  let first := s.signatureEndLine.toNat + 1
  (lines.drop first).take (s.fullRange.stop.line.toNat + 1 - first)

/-- How many body lines are neither blank nor comments. -/
def countLoc (lines : List String) (s : Symbol) : Nat :=
  (s.bodyLines lines).countP fun line => !Text.isIgnorable line.toList

/-- The lines of code as a word; a body never has as many lines as there are words. -/
def loc (lines : List String) (s : Symbol) : UInt32 := UInt32.ofNat (s.countLoc lines)

end Symbol

end FunctionMeter
