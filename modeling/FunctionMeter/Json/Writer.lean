import FunctionMeter.Json.Basic

/-!
# Writing JSON text

Two layouts of the same values: `compact` on one line, and `pretty` with two spaces a level. Only
quotes, backslashes and control characters below U+0020 are escaped.
-/

namespace FunctionMeter.Json

def hexLower (n : Nat) : Char := (Nat.digitChar (n % 16))

def escapeChar (c : Char) : List Char :=
  match c with
  | '"' => ['\\', '"']
  | '\\' => ['\\', '\\']
  | '\n' => ['\\', 'n']
  | '\r' => ['\\', 'r']
  | '\t' => ['\\', 't']
  | '\x08' => ['\\', 'b']
  | '\x0c' => ['\\', 'f']
  | c =>
    if c.toNat < 0x20 then ['\\', 'u', '0', '0', hexLower (c.toNat / 16), hexLower c.toNat]
    else [c]

def writeString (s : String) : List Char := '"' :: s.toList.flatMap escapeChar ++ ['"']

def writeInt (i : Int) : List Char :=
  if i < 0 then '-' :: Nat.toDigits 10 i.natAbs else Nat.toDigits 10 i.natAbs

mutual

def writeCompact : Json → List Char
  | .null => ['n', 'u', 'l', 'l']
  | .bool true => ['t', 'r', 'u', 'e']
  | .bool false => ['f', 'a', 'l', 's', 'e']
  | .int i => writeInt i
  | .real literal => literal.toList
  | .str s => writeString s
  | .arr items => '[' :: writeCompactItems items ++ [']']
  | .obj members => '{' :: writeCompactMembers members ++ ['}']

def writeCompactItems : List Json → List Char
  | [] => []
  | [item] => writeCompact item
  | item :: rest => writeCompact item ++ ',' :: writeCompactItems rest

def writeCompactMembers : List (String × Json) → List Char
  | [] => []
  | [(name, value)] => writeString name ++ ':' :: writeCompact value
  | (name, value) :: rest =>
    writeString name ++ ':' :: writeCompact value ++ ',' :: writeCompactMembers rest

end

def indent (level : Nat) : List Char := '\n' :: List.replicate (2 * level) ' '

mutual

/-- Writes a value that starts at the given level of indentation. -/
def writePretty (level : Nat) : Json → List Char
  | .null => ['n', 'u', 'l', 'l']
  | .bool true => ['t', 'r', 'u', 'e']
  | .bool false => ['f', 'a', 'l', 's', 'e']
  | .int i => writeInt i
  | .real literal => literal.toList
  | .str s => writeString s
  | .arr [] => ['[', ']']
  | .arr (item :: rest) =>
    '[' :: writePrettyItems (level + 1) (item :: rest) ++ indent level ++ [']']
  | .obj [] => ['{', '}']
  | .obj (member :: rest) =>
    '{' :: writePrettyMembers (level + 1) (member :: rest) ++ indent level ++ ['}']

def writePrettyItems (level : Nat) : List Json → List Char
  | [] => []
  | [item] => indent level ++ writePretty level item
  | item :: rest => indent level ++ writePretty level item ++ ',' :: writePrettyItems level rest

def writePrettyMembers (level : Nat) : List (String × Json) → List Char
  | [] => []
  | [(name, value)] =>
    indent level ++ writeString name ++ ':' :: ' ' :: writePretty level value
  | (name, value) :: rest =>
    indent level ++ writeString name ++ ':' :: ' ' :: writePretty level value ++
      ',' :: writePrettyMembers level rest

end

def compact (j : Json) : String := String.ofList (writeCompact j)

def pretty (j : Json) : String := String.ofList (writePretty 0 j)

end FunctionMeter.Json
