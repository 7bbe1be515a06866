import FunctionMeter.Json.Reader

/-!
# TOML scalars

The values of TOML without parts: strings in four notations, numbers, truth values and dates. Every
TOML value denotes a JSON value; a date denotes an object, since none of the settings is one.
-/

namespace FunctionMeter.Toml

def isBlank (c : Char) : Bool := c == ' ' || c == '\t'

/-- Characters that comments and strings may hold as such: all but the control characters other
than the tab. -/
def isPlain (c : Char) : Bool := c == '\t' || (0x20 ≤ c.toNat && c.toNat != 0x7F)

def skipBlank (cs : List Char) : List Char := cs.dropWhile isBlank

/-- What follows a line ending, if there is one. -/
def afterNewline? : List Char → Option (List Char)
  | '\n' :: rest => some rest
  | '\r' :: '\n' :: rest => some rest
  | _ => none

/-- The character with a code, unless the code is a surrogate or too large. -/
def scalar? (code : Nat) : Option Char :=
  if code < 0xD800 || (0xE000 ≤ code && code ≤ 0x10FFFF) then some (Char.ofNat code) else none

def shortEscape? : Char → Option Char
  | '"' => some '"'
  | '\\' => some '\\'
  | 'b' => some '\x08'
  | 'f' => some '\x0c'
  | 'n' => some '\n'
  | 'r' => some '\r'
  | 't' => some '\t'
  | _ => none

def prepend (c : Char) (read : Option (List Char × List Char)) : Option (List Char × List Char) :=
  read.map fun (cs, tail) => (c :: cs, tail)

/-- Whether a backslash stands before the end of its line, which joins lines. -/
def endsLine (cs : List Char) : Bool := (afterNewline? (skipBlank cs)).isSome

/-- Reads the inside of a string in quotation marks and the marks that close it. In a string of
several lines up to two marks may stand before the closing three, and a backslash at the end of a
line skips all blanks and line endings behind it. -/
def readQuoted? (multi skip : Bool) : List Char → Option (List Char × List Char)
  | [] => none
  | '"' :: rest =>
    if multi then
      match rest with
      | '"' :: '"' :: '"' :: '"' :: tail => some (['"', '"'], tail)
      | '"' :: '"' :: '"' :: tail => some (['"'], tail)
      | '"' :: '"' :: tail => some ([], tail)
      | _ => prepend '"' (readQuoted? multi false rest)
    else some ([], rest)
  | '\\' :: 'u' :: a :: b :: c :: d :: rest =>
    match (Json.hexQuad? a b c d).bind scalar? with
    | some x => prepend x (readQuoted? multi false rest)
    | none => none
  | '\\' :: 'U' :: a :: b :: c :: d :: e :: f :: g :: h :: rest =>
    match Json.hexQuad? a b c d, Json.hexQuad? e f g h with
    | some high, some low =>
      match scalar? (high * 0x10000 + low) with
      | some x => prepend x (readQuoted? multi false rest)
      | none => none
    | _, _ => none
  | '\\' :: c :: rest =>
    match shortEscape? c with
    | some x => prepend x (readQuoted? multi false rest)
    | none => if multi && endsLine (c :: rest) then readQuoted? multi true (c :: rest) else none
  | '\r' :: '\n' :: rest =>
    if multi then
      if skip then readQuoted? multi true rest else prepend '\n' (readQuoted? multi false rest)
    else none
  | c :: rest =>
    if multi && c == '\n' then
      if skip then readQuoted? multi true rest else prepend '\n' (readQuoted? multi false rest)
    else if skip && isBlank c then readQuoted? multi true rest
    else if isPlain c then prepend c (readQuoted? multi false rest)
    else none

/-- Reads the inside of a string in apostrophes, which has no escapes. -/
def readLiteral? (multi : Bool) : List Char → Option (List Char × List Char)
  | [] => none
  | '\'' :: rest =>
    if multi then
      match rest with
      | '\'' :: '\'' :: '\'' :: '\'' :: tail => some (['\'', '\''], tail)
      | '\'' :: '\'' :: '\'' :: tail => some (['\''], tail)
      | '\'' :: '\'' :: tail => some ([], tail)
      | _ => prepend '\'' (readLiteral? multi rest)
    else some ([], rest)
  | '\r' :: '\n' :: rest => if multi then prepend '\n' (readLiteral? multi rest) else none
  | c :: rest =>
    if isPlain c || (multi && c == '\n') then prepend c (readLiteral? multi rest) else none

/-- A line ending right behind the opening marks of a string of several lines does not count. -/
def dropNewline (cs : List Char) : List Char := (afterNewline? cs).getD cs

/-- Reads a string in any notation, if one starts here. -/
def readString? : List Char → Option (List Char × List Char)
  | '"' :: '"' :: '"' :: rest => readQuoted? true false (dropNewline rest)
  | '"' :: rest => readQuoted? false false rest
  | '\'' :: '\'' :: '\'' :: rest => readLiteral? true (dropNewline rest)
  | '\'' :: rest => readLiteral? false rest
  | _ => none

/-- Digits that may be grouped by single underscores between them. -/
def grouped? (isDigit : Char → Bool) (cs : List Char) : Option (List Char) :=
  let groups := cs.splitOn '_'
  if groups.all fun g => !g.isEmpty && g.all isDigit then some groups.flatten else none

/-- Decimal digits that do not start with a needless zero. -/
def wholeDigits? (cs : List Char) : Option (List Char) :=
  if cs.head? = some '0' && 1 < cs.length then none else grouped? Char.isDigit cs

def valueIn (base : Nat) (ds : List Char) : Nat :=
  ds.foldl (fun n c => n * base + (Json.hexDigit? c).getD 0) 0

/-- An integer of 64 bits. -/
def integer? (cs : List Char) : Option Int :=
  let bounded (n : Int) : Option Int :=
    if -0x8000000000000000 ≤ n ∧ n < 0x8000000000000000 then some n else none
  let inBase (base : Nat) (isDigit : Char → Bool) (ds : List Char) : Option Int :=
    (grouped? isDigit ds).bind fun ds => bounded (valueIn base ds)
  match cs with
  | '0' :: 'x' :: ds => inBase 16 (fun c => (Json.hexDigit? c).isSome) ds
  | '0' :: 'o' :: ds => inBase 8 (fun c => '0' ≤ c && c ≤ '7') ds
  | '0' :: 'b' :: ds => inBase 2 (fun c => c == '0' || c == '1') ds
  | '-' :: ds => (wholeDigits? ds).bind fun ds => bounded (-(Json.digitsValue ds : Int))
  | '+' :: ds => (wholeDigits? ds).bind fun ds => bounded (Json.digitsValue ds)
  | ds => (wholeDigits? ds).bind fun ds => bounded (Json.digitsValue ds)

/-- The exponent of a float, behind its mark. -/
def exponent? (cs : List Char) : Option Int :=
  match cs with
  | '-' :: ds => (grouped? Char.isDigit ds).map fun ds => -(Json.digitsValue ds : Int)
  | '+' :: ds => (grouped? Char.isDigit ds).map fun ds => (Json.digitsValue ds : Int)
  | ds => (grouped? Char.isDigit ds).map fun ds => (Json.digitsValue ds : Int)

/-- Whether `mantissa * 10 ^ exponent` rounds to a finite double. -/
def fitsDouble (mantissa : Nat) (exponent : Int) : Bool :=
  if mantissa = 0 then true
  else
    let magnitude : Int := (Nat.toDigits 10 mantissa).length + exponent
    if magnitude < 300 then true
    else if 320 < magnitude then false
    else
      let bound := Nat.pow 2 1024 - Nat.pow 2 970
      if 0 ≤ exponent then mantissa * Nat.pow 10 exponent.toNat < bound
      else mantissa < bound * Nat.pow 10 (-exponent).toNat

/-- Whether a token without sign is a float; a positive one must not be too large for a double. -/
def isUnsignedFloat (negative : Bool) (cs : List Char) : Bool :=
  let isMark (c : Char) : Bool := c == 'e' || c == 'E'
  let mantissa := cs.takeWhile (!isMark ·)
  let whole := mantissa.takeWhile (· != '.')
  let fraction := match mantissa.dropWhile (· != '.') with
    | '.' :: ds => (grouped? Char.isDigit ds).map some
    | _ => some none
  let exponent := match cs.dropWhile (!isMark ·) with
    | _ :: ds => (exponent? ds).map some
    | [] => some none
  match wholeDigits? whole, fraction, exponent with
  | some _, some none, some none => false
  | some whole, some fraction, some exponent =>
    let fraction := fraction.getD []
    negative ||
      fitsDouble (Json.digitsValue (whole ++ fraction)) (exponent.getD 0 - fraction.length)
  | _, _, _ => false

def isFloat (cs : List Char) : Bool :=
  let isSpecial (cs : List Char) : Bool := ["inf", "nan"].contains (String.ofList cs)
  match cs with
  | '-' :: rest => isSpecial rest || isUnsignedFloat true rest
  | '+' :: rest => isSpecial rest || isUnsignedFloat false rest
  | rest => isSpecial rest || isUnsignedFloat false rest

/-- The value of two digits. -/
def twoDigits? (a b : Char) : Option Nat :=
  if a.isDigit && b.isDigit then some (Json.digitsValue [a, b]) else none

def daysInMonth (year month : Nat) : Nat :=
  if month = 2 then
    if (year % 4 = 0 ∧ year % 100 ≠ 0) ∨ year % 400 = 0 then 29 else 28
  else if [4, 6, 9, 11].contains month then 30
  else 31

def isDate : List Char → Bool
  | [a, b, c, d, '-', e, f, '-', g, h] =>
    match twoDigits? a b, twoDigits? c d, twoDigits? e f, twoDigits? g h with
    | some century, some year, some month, some day =>
      1 ≤ month && month ≤ 12 && 1 ≤ day && day ≤ daysInMonth (century * 100 + year) month
    | _, _, _, _ => false
  | _ => false

def isHourMinute (a b c d : Char) : Bool :=
  match twoDigits? a b, twoDigits? c d with
  | some hour, some minute => hour < 24 && minute < 60
  | _, _ => false

/-- A time of day; seconds are required and may have a fraction. -/
def isTime : List Char → Bool
  | a :: b :: ':' :: c :: d :: ':' :: e :: f :: rest =>
    isHourMinute a b c d &&
      (match twoDigits? e f with
       | some second => second ≤ 60
       | none => false) &&
      (match rest with
       | [] => true
       | '.' :: ds => !ds.isEmpty && ds.all Char.isDigit
       | _ => false)
  | _ => false

/-- A time of day, perhaps with the offset of a time zone. -/
def isZonedTime (cs : List Char) : Bool :=
  isTime cs ||
    match cs.reverse with
    | 'Z' :: rest => isTime rest.reverse
    | 'z' :: rest => isTime rest.reverse
    | d :: c :: ':' :: b :: a :: sign :: rest =>
      (sign == '+' || sign == '-') && isHourMinute a b c d && isTime rest.reverse
    | _ => false

/-- A date, a time, or both joined by a letter. -/
def isMoment (cs : List Char) : Bool :=
  isDate cs || isTime cs ||
    (isDate (cs.take 10) &&
      match cs.drop 10 with
      | c :: time => (c == 'T' || c == 't') && isZonedTime time
      | [] => false)

/-- What stands for a date. -/
def moment (cs : List Char) : Json := .obj [("moment", .str (String.ofList cs))]

/-- Characters of numbers, truth values and dates. -/
def isTokenChar (c : Char) : Bool :=
  c.isAlphanum || c == '+' || c == '-' || c == '.' || c == '_' || c == ':'

def token? (cs : List Char) : Option Json :=
  if cs = "true".toList then some (.bool true)
  else if cs = "false".toList then some (.bool false)
  else
    match integer? cs with
    | some n => some (.int n)
    | none =>
      if isFloat cs then some (.real (String.ofList cs))
      else if isMoment cs then some (moment cs)
      else none

/-- Reads a number, truth value or date. A date and a time may also be joined by a blank. -/
def readToken? (cs : List Char) : Option (Json × List Char) :=
  let word := cs.takeWhile isTokenChar
  let rest := cs.dropWhile isTokenChar
  match rest with
  | ' ' :: tail =>
    let time := tail.takeWhile isTokenChar
    if isDate word && isZonedTime time then
      some (moment (word ++ ' ' :: time), tail.dropWhile isTokenChar)
    else (token? word).map (·, rest)
  | _ => (token? word).map (·, rest)

end FunctionMeter.Toml
