import FunctionMeter.Json.Basic

/-!
# Reading JSON text

`Json.read?` accepts exactly the texts of the JSON grammar whose arrays and objects nest no deeper
than a given depth, whose strings hold no lone surrogate, and whose numbers fit a double.
-/

namespace FunctionMeter.Json

/-- Insignificant white space of the grammar, which is smaller than any notion of blank. -/
def isSpace (c : Char) : Bool := c == ' ' || c == '\n' || c == '\t' || c == '\r'

def skipSpace (cs : List Char) : List Char := cs.dropWhile isSpace

def hexDigit? (c : Char) : Option Nat :=
  if '0' ≤ c ∧ c ≤ '9' then some (c.toNat - '0'.toNat)
  else if 'a' ≤ c ∧ c ≤ 'f' then some (c.toNat - 'a'.toNat + 10)
  else if 'A' ≤ c ∧ c ≤ 'F' then some (c.toNat - 'A'.toNat + 10)
  else none

def hexQuad? (a b c d : Char) : Option Nat := do
  let a ← hexDigit? a
  let b ← hexDigit? b
  let c ← hexDigit? c
  let d ← hexDigit? d
  some (((a * 16 + b) * 16 + c) * 16 + d)

def isHighSurrogate (u : Nat) : Bool := 0xD800 ≤ u && u ≤ 0xDBFF

def isLowSurrogate (u : Nat) : Bool := 0xDC00 ≤ u && u ≤ 0xDFFF

/-- The character written by a backslash and one letter. -/
def shortEscape? : Char → Option Char
  | '"' => some '"'
  | '\\' => some '\\'
  | '/' => some '/'
  | 'b' => some '\x08'
  | 'f' => some '\x0c'
  | 'n' => some '\n'
  | 'r' => some '\r'
  | 't' => some '\t'
  | _ => none

/-- Reads the inside of a string and its closing quote. -/
def readString? : List Char → Option (List Char × List Char)
  | [] => none
  | '"' :: rest => some ([], rest)
  | '\\' :: 'u' :: a :: b :: c :: d :: rest =>
    match hexQuad? a b c d with
    | none => none
    | some u =>
      if isHighSurrogate u then
        match rest with
        | '\\' :: 'u' :: e :: f :: g :: h :: rest =>
          match hexQuad? e f g h with
          | none => none
          | some v =>
            if isLowSurrogate v then
              (readString? rest).map fun (cs, tail) =>
                (Char.ofNat (0x10000 + (u - 0xD800) * 0x400 + (v - 0xDC00)) :: cs, tail)
            else none
        | _ => none
      else if isLowSurrogate u then none
      else (readString? rest).map fun (cs, tail) => (Char.ofNat u :: cs, tail)
  | '\\' :: c :: rest =>
    match shortEscape? c with
    | some x => (readString? rest).map fun (cs, tail) => (x :: cs, tail)
    | none => none
  | c :: rest =>
    if c.toNat < 0x20 then none
    else (readString? rest).map fun (cs, tail) => (c :: cs, tail)

def digitsValue (ds : List Char) : Nat :=
  ds.foldl (fun n c => n * 10 + (c.toNat - '0'.toNat)) 0

/-- Digits before the point: a single zero, or digits that do not start with one. -/
def readWhole? : List Char → Option (List Char × List Char)
  | '0' :: c :: rest => if c.isDigit then none else some (['0'], c :: rest)
  | ['0'] => some (['0'], [])
  | cs =>
    let ds := cs.takeWhile Char.isDigit
    if ds.isEmpty then none else some (ds, cs.dropWhile Char.isDigit)

/-- A point and at least one digit, or nothing. -/
def readFraction? : List Char → Option (Option (List Char) × List Char)
  | '.' :: rest =>
    let ds := rest.takeWhile Char.isDigit
    if ds.isEmpty then none else some (some ds, rest.dropWhile Char.isDigit)
  | cs => some (none, cs)

def readExponentDigits? (negative : Bool) (cs : List Char) : Option (Option Int × List Char) :=
  let ds := cs.takeWhile Char.isDigit
  if ds.isEmpty then none
  else
    let n : Int := digitsValue ds
    some (some (if negative then -n else n), cs.dropWhile Char.isDigit)

/-- An exponent, or nothing. -/
def readExponent? : List Char → Option (Option Int × List Char)
  | c :: rest =>
    if c == 'e' || c == 'E' then
      match rest with
      | '+' :: rest => readExponentDigits? false rest
      | '-' :: rest => readExponentDigits? true rest
      | rest => readExponentDigits? false rest
    else some (none, c :: rest)
  | [] => some (none, [])

/-- Goes on with a number by further digits, as far as it stays a word of 64 bits; gives the number
and how many digits were left off. -/
def appendDigits (n : Nat) : List Char → Nat × Nat
  | [] => (n, 0)
  | d :: ds =>
    let next := n * 10 + (d.toNat - '0'.toNat)
    if next < 0x10000000000000000 then appendDigits next ds else (n, ds.length + 1)

/-- The double next to a number: its 53 leading binary digits, rounded, and a half to even. -/
def toDouble (n : Nat) : Nat :=
  let unit := Nat.pow 2 (n.log2 - 52)
  let kept := n / unit
  let rest := n % unit
  if unit < 2 * rest ∨ unit = 2 * rest ∧ kept % 2 = 1 then (kept + 1) * unit else kept * unit

/-- Whether the product of two doubles, a significand and a power of ten, is finite. What is not
below the greatest double by half its last digit rounds to infinity. -/
def isFinite (significand : Nat) (exponent : Int) : Bool :=
  if significand = 0 ∨ exponent < 0 then true
  else if 308 < exponent then false
  else toDouble significand * toDouble (Nat.pow 10 exponent.toNat) < Nat.pow 2 1024 - Nat.pow 2 970

/-- Whether a number with these digits before and behind the point and this exponent fits a double.
Only the digits that a word takes count for it. -/
def fitsDouble (whole fraction : List Char) (exponent : Int) : Bool :=
  let (leading, dropped) := appendDigits 0 whole
  let (significand, ignored) := appendDigits leading fraction
  isFinite significand (dropped - (fraction.length - ignored : Nat) + exponent)

/-- Reads a number. A minus sign before a bare zero makes it a real, since no integer is meant. -/
def readNumber? (cs : List Char) : Option (Json × List Char) := do
  let (negative, body) := match cs with
    | '-' :: rest => (true, rest)
    | cs => (false, cs)
  let (whole, rest) ← readWhole? body
  let (fraction, rest) ← readFraction? rest
  let (exponent, rest) ← readExponent? rest
  if fitsDouble whole (fraction.getD []) (exponent.getD 0) then
    match fraction, exponent with
    | none, none =>
      let n := digitsValue whole
      if negative then
        if n = 0 then some (.real "-0", rest) else some (.int (-(n : Int)), rest)
      else some (.int n, rest)
    | _, _ => some (.real (String.ofList (cs.take (cs.length - rest.length))), rest)
  else none

mutual

/-- Reads one value; `depth` bounds the nesting and `fuel` the number of calls. -/
def readValue? (fuel depth : Nat) (cs : List Char) : Option (Json × List Char) :=
  match fuel with
  | 0 => none
  | fuel + 1 =>
    match skipSpace cs with
    | 'n' :: 'u' :: 'l' :: 'l' :: rest => some (.null, rest)
    | 't' :: 'r' :: 'u' :: 'e' :: rest => some (.bool true, rest)
    | 'f' :: 'a' :: 'l' :: 's' :: 'e' :: rest => some (.bool false, rest)
    | '"' :: rest => (readString? rest).map fun (s, tail) => (.str (String.ofList s), tail)
    | '[' :: rest =>
      match depth with
      | 0 => none
      | depth + 1 =>
        match skipSpace rest with
        | ']' :: tail => some (.arr [], tail)
        | rest => (readItems? fuel depth rest).map fun (items, tail) => (.arr items, tail)
    | '{' :: rest =>
      match depth with
      | 0 => none
      | depth + 1 =>
        match skipSpace rest with
        | '}' :: tail => some (.obj [], tail)
        | rest => (readMembers? fuel depth rest).map fun (members, tail) => (.obj members, tail)
    | rest => readNumber? rest

/-- Reads the items of an array that has at least one, and the closing bracket. -/
def readItems? (fuel depth : Nat) (cs : List Char) : Option (List Json × List Char) :=
  match fuel with
  | 0 => none
  | fuel + 1 =>
    match readValue? fuel depth cs with
    | none => none
    | some (item, rest) =>
      match skipSpace rest with
      | ']' :: tail => some ([item], tail)
      | ',' :: rest => (readItems? fuel depth rest).map fun (items, tail) => (item :: items, tail)
      | _ => none

/-- Reads the members of an object that has at least one, and the closing brace. -/
def readMembers? (fuel depth : Nat) (cs : List Char) : Option (List (String × Json) × List Char) :=
  match fuel with
  | 0 => none
  | fuel + 1 =>
    match skipSpace cs with
    | '"' :: rest =>
      match readString? rest with
      | none => none
      | some (name, rest) =>
        match skipSpace rest with
        | ':' :: rest =>
          match readValue? fuel depth rest with
          | none => none
          | some (value, rest) =>
            match skipSpace rest with
            | '}' :: tail => some ([(String.ofList name, value)], tail)
            | ',' :: rest =>
              (readMembers? fuel depth rest).map fun (members, tail) =>
                ((String.ofList name, value) :: members, tail)
            | _ => none
        | _ => none
    | _ => none

end

/-- Reads a whole text as one value whose nesting is at most `depth`. -/
def read? (depth : Nat) (text : String) : Option Json :=
  let cs := text.toList
  match readValue? (2 * cs.length + 2) depth cs with
  | some (value, rest) => if (skipSpace rest).isEmpty then some value else none
  | none => none

/-- How deep arrays and objects may nest in JSON text handed over as a file. -/
def textDepth : Nat := 127

end FunctionMeter.Json
