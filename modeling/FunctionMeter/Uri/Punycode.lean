/-!
# ASCII form of host labels

A label with characters outside ASCII is written with its ASCII characters first and the others as
a list of differences in a mixed base whose thresholds adapt to the differences seen.
-/

namespace FunctionMeter.Uri.Punycode

def digit (d : Nat) : Char :=
  if d < 26 then Char.ofNat ('a'.toNat + d) else Char.ofNat ('0'.toNat + d - 26)

def threshold (k bias : Nat) : Nat :=
  if k ≤ bias + 1 then 1 else if bias + 26 ≤ k then 26 else k - bias

/-- Halves the range of a difference until it fits the skew; `fuel` bounds the divisions. -/
def shrink (fuel delta k : Nat) : Nat :=
  match fuel with
  | 0 => k
  | fuel + 1 =>
    if 455 < delta then shrink fuel (delta / 35) (k + 36) else k + 36 * delta / (delta + 38)

def adapt (delta count : Nat) (first : Bool) : Nat :=
  let delta := if first then delta / 700 else delta / 2
  shrink (delta + 1) (delta + delta / count) 0

/-- The digits of a difference; `fuel` bounds their number. -/
def digits (fuel bias k q : Nat) : List Char :=
  let t := threshold k bias
  match fuel with
  | 0 => []
  | fuel + 1 =>
    if q < t then [digit q]
    else digit (t + (q - t) % (36 - t)) :: digits fuel bias (k + 36) ((q - t) / (36 - t))

structure State where
  output : List Char
  delta : Nat
  bias : Nat
  handled : Nat

/-- Looks at one character of the label while the code point `m` is being written. -/
def visit (basic m : Nat) (state : State) (c : Char) : State :=
  if c.toNat < m then { state with delta := state.delta + 1 }
  else if c.toNat = m then
    { output := state.output ++ digits (state.delta + 1) state.bias 36 state.delta
      delta := 0
      bias := adapt state.delta (state.handled + 1) (state.handled = basic)
      handled := state.handled + 1 }
  else state

/-- Writes the code points in ascending order. -/
def encodeFrom (label : List Char) (basic : Nat) : List Nat → Nat → State → State
  | [], _, state => state
  | m :: rest, n, state =>
    let state := { state with delta := state.delta + (m - n) * (state.handled + 1) }
    let state := label.foldl (visit basic m) state
    encodeFrom label basic rest (m + 1) { state with delta := state.delta + 1 }

def ascending (ns : List Nat) : List Nat := (ns.mergeSort (· ≤ ·)).eraseDups

/-- The ASCII form of a label, which for an ASCII label is the label itself. -/
def ascii (label : List Char) : List Char :=
  let basic := label.filter (·.toNat < 0x80)
  if basic.length = label.length then label
  else
    let others := ascending ((label.filter (0x80 ≤ ·.toNat)).map Char.toNat)
    let start : State :=
      { output := if basic.isEmpty then [] else basic ++ ['-'], delta := 0, bias := 72
        handled := basic.length }
    'x' :: 'n' :: '-' :: '-' :: (encodeFrom label basic.length others 0x80 start).output

end FunctionMeter.Uri.Punycode
