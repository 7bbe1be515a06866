import FunctionMeter.Json.Reader

/-!
# Percent encoding

Each part of a URI has a class of characters that it does not hold as such: they are written as
their UTF-8 bytes in hexadecimal behind percent signs. Characters outside ASCII are always written
so. Escapes that are already there stay as they are.
-/

namespace FunctionMeter.Uri

/-- Control characters and everything outside ASCII. -/
def isControl (c : Char) : Bool := c.toNat < 0x20 || 0x7F ≤ c.toNat

def escapedInFragment (c : Char) : Bool :=
  isControl c || c == ' ' || c == '"' || c == '<' || c == '>' || c == '\x60'

def escapedInPath (c : Char) : Bool :=
  escapedInFragment c || c == '#' || c == '?' || c == '{' || c == '}'

def escapedInUserinfo (c : Char) : Bool :=
  escapedInPath c || c == '/' || c == ':' || c == ';' || c == '=' || c == '@' || c == '[' ||
    c == '\\' || c == ']' || c == '^' || c == '|'

def escapedInQuery (c : Char) : Bool :=
  isControl c || c == ' ' || c == '"' || c == '#' || c == '<' || c == '>'

/-- The query of a special scheme also escapes the apostrophe. -/
def escapedInSpecialQuery (c : Char) : Bool := escapedInQuery c || c == '\''

def hexUpper (n : Nat) : Char := (Nat.digitChar (n % 16)).toUpper

def escapeByte (b : UInt8) : List Char := ['%', hexUpper (b.toNat / 16), hexUpper b.toNat]

def escapeChar (c : Char) : List Char := (String.utf8EncodeChar c).flatMap escapeByte

/-- Writes text with the characters of a class escaped. -/
def percentEncode (escaped : Char → Bool) (cs : List Char) : List Char :=
  cs.flatMap fun c => if escaped c then escapeChar c else [c]

/-- The bytes a text stands for; a percent sign without two hexadecimal digits stands for itself. -/
def percentDecode : List Char → List UInt8
  | [] => []
  | '%' :: a :: b :: rest =>
    match Json.hexDigit? a, Json.hexDigit? b with
    | some h, some l => UInt8.ofNat (h * 16 + l) :: percentDecode rest
    | _, _ => '%'.toNat.toUInt8 :: percentDecode (a :: b :: rest)
  | c :: rest => String.utf8EncodeChar c ++ percentDecode rest

/-- The text that a percent-encoded text stands for, if its bytes are UTF-8. -/
def percentDecodeText? (cs : List Char) : Option String :=
  String.fromUTF8? ⟨(percentDecode cs).toArray⟩

end FunctionMeter.Uri
