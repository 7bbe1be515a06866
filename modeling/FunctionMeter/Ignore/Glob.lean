/-!
# Globs

Patterns for paths. A star stands for any characters but slashes, a question mark for one of them, a
class in brackets for one of its characters, and two stars between slashes for any directories.
Braces list alternatives; a glob with alternatives stands for all globs without that it spells out.
Matching works on the bytes of a path.
-/

namespace FunctionMeter.Ignore

inductive Token where
  | byte (value : UInt8)
  /-- One byte that is no slash. -/
  | any
  /-- Any number of bytes that are no slashes. -/
  | star
  /-- Any directories before the rest. -/
  | leading
  /-- Everything below. -/
  | trailing
  /-- A slash, any directories, and a slash if there are any. -/
  | between
  /-- One byte in, or not in, one of the ranges. -/
  | oneOf (negated : Bool) (ranges : List (UInt8 × UInt8))
  deriving DecidableEq, Repr, Inhabited

def slash : UInt8 := '/'.toNat.toUInt8

/-- Whether a test holds of a text or of what is left of it behind some bytes that are no
slashes. -/
def behindNames (test : List UInt8 → Bool) : List UInt8 → Bool
  | [] => test []
  | b :: rest => test (b :: rest) || (b != slash && behindNames test rest)

/-- Whether a test holds behind some slash. -/
def behindSlash (test : List UInt8 → Bool) : List UInt8 → Bool
  | [] => false
  | b :: rest => (b == slash && test rest) || behindSlash test rest

/-- Whether a test holds of a text or of any end of it. -/
def anywhere (test : List UInt8 → Bool) : List UInt8 → Bool
  | [] => test []
  | b :: rest => test (b :: rest) || anywhere test rest

def matchesTokens : List Token → List UInt8 → Bool
  | [], path => path.isEmpty
  | .byte value :: tokens, path =>
    match path with
    | b :: rest => b == value && matchesTokens tokens rest
    | [] => false
  | .any :: tokens, path =>
    match path with
    | b :: rest => b != slash && matchesTokens tokens rest
    | [] => false
  | .star :: tokens, path => behindNames (matchesTokens tokens) path
  | .leading :: tokens, path =>
    matchesTokens tokens path || behindSlash (matchesTokens tokens) path
  | .trailing :: tokens, path =>
    match path with
    | b :: rest => b == slash && anywhere (matchesTokens tokens) rest
    | [] => false
  | .between :: tokens, path =>
    match path with
    | b :: rest =>
      b == slash && (matchesTokens tokens rest || behindSlash (matchesTokens tokens) rest)
    | [] => false
  | .oneOf negated ranges :: tokens, path =>
    match path with
    | b :: rest =>
      ranges.any (fun (low, high) => low ≤ b && b ≤ high) != negated && matchesTokens tokens rest
    | [] => false

/-- Two stars alone match everything. -/
def matchesGlob (tokens : List Token) (path : List UInt8) : Bool :=
  tokens = [.leading] || matchesTokens tokens path

/-- The bytes of a character, as tokens. -/
def charTokens (c : Char) : List Token := (String.utf8EncodeChar c).map Token.byte

/-- A range of characters in a class, by bytes. -/
def byteRanges (range : Char × Char) : List (UInt8 × UInt8) :=
  let low := String.utf8EncodeChar range.1
  let high := String.utf8EncodeChar range.2
  if range.1 = range.2 then low.map fun b => (b, b)
  else
    low.dropLast.map (fun b => (b, b)) ++ [(low.getLast?.getD 0, high.head?.getD 0)] ++
      high.tail.map (fun b => (b, b))

/-- Reads a class behind its bracket and negation; `ranges` holds the ranges so far, the last one
first, and `opened` tells that a dash waits for the end of a range. -/
def readClass? (first opened : Bool) (ranges : List (Char × Char)) :
    List Char → Option (List (Char × Char) × List Char)
  | [] => none
  | c :: rest =>
    if c == ']' && !first then
      some ((if opened then ('-', '-') :: ranges else ranges).reverse, rest)
    else if c == '-' && !first && !opened then readClass? false true ranges rest
    else
      match opened, ranges with
      | true, (low, _) :: others =>
        if c < low then none else readClass? false false ((low, c) :: others) rest
      | _, ranges => readClass? false false ((c, c) :: ranges) rest

/-- The alternatives read so far at one depth of braces. The tokens of an alternative stand last one
first. -/
structure Frame where
  /-- The alternatives before the last comma. -/
  finished : List (List Token)
  current : List (List Token)
  /-- Whether nothing stands behind the brace or comma. -/
  fresh : Bool

namespace Frame

def start : Frame := ⟨[], [[]], true⟩

def push (tokens : List Token) (frame : Frame) : Frame :=
  { frame with current := frame.current.map (tokens.reverse ++ ·), fresh := false }

def all (frame : Frame) : List (List Token) := frame.finished ++ frame.current

/-- The alternatives that count: empty ones are passed over, unless there are no others. -/
def alternatives (frame : Frame) : List (List Token) :=
  let proper := frame.all.filter (!·.isEmpty)
  if proper.isEmpty then [[]] else proper

/-- Puts `token` in the place of the slash before it. -/
def replaceSlash (token : Token) (frame : Frame) : Frame :=
  let replace : List Token → List Token
    | .leading :: rest => .leading :: rest
    | .trailing :: rest => .trailing :: rest
    | _ :: rest => token :: rest
    | [] => [token]
  { frame with current := frame.current.map replace }

end Frame

/-- Reads a glob; `previous` is the character before, `outer` the frames around the current one, and
`fuel` bounds the number of steps. -/
def readGlob? (fuel : Nat) (previous : Option Char) (frame : Frame) (outer : List Frame)
    (cs : List Char) : Option (List (List Token)) :=
  match fuel with
  | 0 => none
  | fuel + 1 =>
    match cs with
    | [] => if outer.isEmpty then some (frame.all.map List.reverse) else none
    | '?' :: rest => readGlob? fuel (some '?') (frame.push [.any]) outer rest
    | '*' :: '*' :: rest =>
      let stars := readGlob? fuel (some '*') (frame.push [.star, .star]) outer rest
      if frame.fresh then
        match rest with
        | [] => readGlob? fuel (some '*') (frame.push [.leading]) outer []
        | '/' :: rest => readGlob? fuel (some '/') (frame.push [.leading]) outer rest
        | _ => stars
      else if previous ≠ some '/' then stars
      else
        match rest with
        | [] => readGlob? fuel (some '*') (frame.replaceSlash .trailing) outer []
        | '/' :: rest => readGlob? fuel (some '/') (frame.replaceSlash .between) outer rest
        | c :: _ =>
          if !outer.isEmpty && (c == ',' || c == '}') then
            readGlob? fuel (some '*') (frame.replaceSlash .trailing) outer rest
          else stars
    | '*' :: rest => readGlob? fuel (some '*') (frame.push [.star]) outer rest
    | '[' :: rest =>
      let (negated, body) := match rest with
        | '!' :: body => (true, body)
        | '^' :: body => (true, body)
        | body => (false, body)
      match readClass? true false [] body with
      | some (ranges, rest) =>
        readGlob? fuel (some ']') (frame.push [.oneOf negated (ranges.flatMap byteRanges)]) outer
          rest
      | none => none
    | '{' :: rest => readGlob? fuel (some '{') .start (frame :: outer) rest
    | '}' :: rest =>
      match outer with
      | [] => none
      | around :: outer =>
        let joined := around.current.flatMap fun before => frame.alternatives.map (· ++ before)
        readGlob? fuel (some '}') { around with current := joined, fresh := false } outer rest
    | ',' :: rest =>
      if outer.isEmpty then readGlob? fuel (some ',') (frame.push (charTokens ',')) outer rest
      else readGlob? fuel (some ',') ⟨frame.all, [[]], true⟩ outer rest
    | '\\' :: rest =>
      match rest with
      | [] => none
      | c :: rest => readGlob? fuel (some c) (frame.push (charTokens c)) outer rest
    | c :: rest => readGlob? fuel (some c) (frame.push (charTokens c)) outer rest

/-- The globs without alternatives that a glob stands for, if it is well-formed. -/
def glob? (cs : List Char) : Option (List (List Token)) :=
  readGlob? (cs.length + 1) none .start [] cs

end FunctionMeter.Ignore
