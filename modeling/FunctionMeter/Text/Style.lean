/-!
# Terminal styles

A style is a list of display codes. Styled text is wrapped in the escape sequences of its codes and
a reset; with colours off it is the text alone.
-/

namespace FunctionMeter

/-- Display codes in the order in which they are written. -/
structure Style where
  codes : List Nat
  deriving DecidableEq, Repr

namespace Style

def dim : Style := ⟨[2]⟩
def bold : Style := ⟨[1]⟩
def strikethrough : Style := ⟨[9]⟩
def red : Style := ⟨[31]⟩
def redBold : Style := ⟨[31, 1]⟩
def green : Style := ⟨[32]⟩
def yellow : Style := ⟨[33]⟩
def cyan : Style := ⟨[36]⟩
def cyanBold : Style := ⟨[36, 1]⟩

/-- The escape sequence of a code. -/
def escape (code : Nat) : String := "\x1b[" ++ code.repr ++ "m"

/-- Writes text in a style. Empty text is styled too. -/
def apply (style : Style) (coloured : Bool) (text : String) : String :=
  if coloured then String.join (style.codes.map escape) ++ text ++ escape 0 else text

end Style

namespace Text

/-- Fills with blanks on the left up to a width in characters. -/
def padLeft (width : Nat) (text : String) : String :=
  String.ofList (List.replicate (width - text.length) ' ') ++ text

/-- Fills with blanks on the right up to a width in characters. -/
def padRight (width : Nat) (text : String) : String :=
  text ++ String.ofList (List.replicate (width - text.length) ' ')

end Text

end FunctionMeter
