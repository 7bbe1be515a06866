import FunctionMeter.Json.Reader

/-!
# Internet addresses

Hosts that are numbers. A host whose last label is a number is an IPv4 address or nothing at all;
an address in brackets is IPv6. Both are rewritten into one canonical text.
-/

namespace FunctionMeter.Uri

def isOctal (c : Char) : Bool := '0' ≤ c && c ≤ '7'

def isHex (c : Char) : Bool := (Json.hexDigit? c).isSome

def valueIn (base : Nat) (cs : List Char) : Nat :=
  cs.foldl (fun n c => n * base + (Json.hexDigit? c).getD 0) 0

/-- A number of an IPv4 address: hexadecimal behind `0x`, octal behind `0`, else decimal. -/
def ipv4Number? : List Char → Option Nat
  | [] => none
  | ['0'] => some 0
  | '0' :: x :: digits =>
    if x == 'x' || x == 'X' then
      if digits.all isHex then some (valueIn 16 digits) else none
    else if (x :: digits).all isOctal then some (valueIn 8 (x :: digits))
    else none
  | digits => if digits.all Char.isDigit then some (valueIn 10 digits) else none

/-- The labels of a host, a final empty one left out. -/
def hostLabels (host : List Char) : List (List Char) :=
  let labels := host.splitOn '.'
  if labels.getLast? = some [] then labels.dropLast else labels

def endsInNumber (host : List Char) : Bool :=
  match (hostLabels host).getLast? with
  | none => false
  | some last =>
    if last.isEmpty then false
    else last.all Char.isDigit || (ipv4Number? last).isSome

/-- The four bytes of an IPv4 address; the last number fills all bytes that are left. -/
def ipv4? (host : List Char) : Option Nat := do
  let labels := hostLabels host
  if 4 < labels.length then none
  let numbers ← labels.mapM ipv4Number?
  let last ← numbers.getLast?
  let front := numbers.dropLast
  if front.any (255 < ·) then none
  if Nat.pow 256 (4 - front.length) ≤ last then none
  some (front.zipIdx.foldr (fun (n, i) total => n * Nat.pow 256 (3 - i) + total) last)

def ipv4Text (address : Nat) : String :=
  ".".intercalate ([3, 2, 1, 0].map fun i => (address / Nat.pow 256 i % 256).repr)

def ipv6Piece? (cs : List Char) : Option Nat :=
  if cs.isEmpty || 4 < cs.length then none
  else if cs.all isHex then some (valueIn 16 cs)
  else none

/-- A decimal number up to 255 without a leading zero. -/
def decimalByte? (cs : List Char) : Option Nat :=
  if cs.isEmpty || !cs.all Char.isDigit then none
  else if 1 < cs.length && cs.head? = some '0' then none
  else
    let n := valueIn 10 cs
    if 255 < n then none else some n

/-- A dotted address at the end of an IPv6 address, as two pieces. -/
def dottedPieces? (cs : List Char) : Option (List Nat) := do
  let bytes ← (cs.splitOn '.').mapM decimalByte?
  match bytes with
  | [a, b, c, d] => some [a * 256 + b, c * 256 + d]
  | _ => none

/-- The pieces between colons; only the last may be a dotted address. -/
def ipv6Pieces? (dotted : Bool) : List (List Char) → Option (List Nat)
  | [] => some []
  | [last] =>
    if dotted && last.contains '.' then dottedPieces? last else (ipv6Piece? last).map ([·])
  | piece :: rest => do
    let n ← ipv6Piece? piece
    let ns ← ipv6Pieces? dotted rest
    some (n :: ns)

/-- Divides at the first double colon. -/
def atDoubleColon : List Char → Option (List Char × List Char)
  | [] => none
  | ':' :: ':' :: rest => some ([], rest)
  | c :: rest => (atDoubleColon rest).map fun (left, right) => (c :: left, right)

def colonPieces? (dotted : Bool) (cs : List Char) : Option (List Nat) :=
  if cs.isEmpty then some [] else ipv6Pieces? dotted (cs.splitOn ':')

/-- The eight pieces of an IPv6 address. -/
def ipv6? (cs : List Char) : Option (List Nat) :=
  match atDoubleColon cs with
  | some (left, right) => do
    let left ← colonPieces? false left
    let right ← colonPieces? true right
    if 7 < left.length + right.length then none
    else some (left ++ List.replicate (8 - left.length - right.length) 0 ++ right)
  | none => do
    let pieces ← colonPieces? true cs
    if pieces.length = 8 then some pieces else none

/-- The length of the run of zeros at the start. -/
def zeroRun (pieces : List Nat) : Nat := (pieces.takeWhile (· == 0)).length

/-- Where the first of the longest runs of at least two zeros starts, and its length. -/
def longestZeroRun (pieces : List Nat) : Option (Nat × Nat) :=
  (List.range pieces.length).foldl (fun best i =>
    let n := zeroRun (pieces.drop i)
    match best with
    | some (_, m) => if m < n then some (i, n) else best
    | none => if 2 ≤ n then some (i, n) else none) none

def hexText (n : Nat) : String := String.ofList (Nat.toDigits 16 n)

def ipv6Text (pieces : List Nat) : String :=
  match longestZeroRun pieces with
  | some (i, n) =>
    ":".intercalate ((pieces.take i).map hexText) ++ "::" ++
      ":".intercalate ((pieces.drop (i + n)).map hexText)
  | none => ":".intercalate (pieces.map hexText)

end FunctionMeter.Uri
