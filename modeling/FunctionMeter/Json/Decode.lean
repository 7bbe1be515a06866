import FunctionMeter.Json.Basic

/-!
# Decoding JSON values

Records are read by the rules the wire formats share. A record is an object, in which unknown
members are ignored and a known member must not be repeated, or an array of the fields in the order
of their declaration. A field may be required, may fall back to a default, or may be optional;
`null` counts as missing for an optional field only.
-/

namespace FunctionMeter.Json

def bool? : Json → Option Bool
  | .bool b => some b
  | _ => none

def string? : Json → Option String
  | .str s => some s
  | _ => none

def nat? : Json → Option Nat
  | .int i => if 0 ≤ i then some i.toNat else none
  | _ => none

/-- An unsigned integer of 32 bits. -/
def word? : Json → Option UInt32
  | .int i => if 0 ≤ i ∧ i < 0x100000000 then some (UInt32.ofNat i.toNat) else none
  | _ => none

/-- A signed integer of 32 bits. -/
def int32? : Json → Option Int32
  | .int i => if -0x80000000 ≤ i ∧ i < 0x80000000 then some (Int32.ofInt i) else none
  | _ => none

def list? {α : Type} (decode : Json → Option α) : Json → Option (List α)
  | .arr items => items.mapM decode
  | _ => none

/-- Reads `null` as nothing. -/
def nullable? {α : Type} (decode : Json → Option α) : Json → Option (Option α)
  | .null => some none
  | j => (decode j).map some

/-- Reads one of a fixed set of names: the name itself, or an object that maps it to `null`. -/
def variant? {α : Type} (variants : List (String × α)) : Json → Option α
  | .str name => variants.lookup name
  | .obj [(name, .null)] => variants.lookup name
  | _ => none

/-- Reads one of a fixed set of names as a member of a tagged value, where the object may also map
the name to an empty object. -/
def taggedVariant? {α : Type} (variants : List (String × α)) : Json → Option α
  | .obj [(name, .obj [])] => variants.lookup name
  | j => variant? variants j

/-- The fields of a record as written. -/
structure Fields where
  /-- Whether the record was written as an array. -/
  positional : Bool
  values : List (String × Json)

namespace Fields

def get? (fields : Fields) (name : String) : Option Json := fields.values.lookup name

def required {α : Type} (fields : Fields) (name : String) (decode : Json → Option α) : Option α :=
  match fields.get? name with
  | some value => decode value
  | none => none

def withDefault {α : Type} (fields : Fields) (name : String) (decode : Json → Option α)
    (default : α) : Option α :=
  match fields.get? name with
  | some value => decode value
  | none => some default

/-- An optional field may be absent from an object but not from an array. -/
def optional {α : Type} (fields : Fields) (name : String) (decode : Json → Option α) :
    Option (Option α) :=
  match fields.get? name with
  | some value => nullable? decode value
  | none => if fields.positional then none else some none

end Fields

/-- Whether some name of the list is written twice among the members. -/
def repeats (names : List String) : List (String × Json) → Bool
  | [] => false
  | (name, _) :: rest => (names.contains name && (rest.lookup name).isSome) || repeats names rest

/-- Reads a record that must be written as an object. -/
def objectFields? (names : List String) : Json → Option Fields
  | .obj members => if repeats names members then none else some ⟨false, members⟩
  | _ => none

/-- Reads a record with the given fields. -/
def fields? (names : List String) : Json → Option Fields
  | .arr items => if names.length < items.length then none else some ⟨true, names.zip items⟩
  | j => objectFields? names j

/-- Reads a record with the given fields; an array may go on behind the last field. -/
def leadingFields? (names : List String) : Json → Option Fields
  | .arr items => some ⟨true, names.zip items⟩
  | j => objectFields? names j

/-- An object with the given members. -/
def record (members : List (String × Json)) : Json := .obj members

def ofNat (n : Nat) : Json := .int n

def ofWord (n : UInt32) : Json := .int n.toNat

def ofInt32 (n : Int32) : Json := .int n.toInt

def ofOption {α : Type} (encode : α → Json) : Option α → Json
  | some a => encode a
  | none => .null

def ofList {α : Type} (encode : α → Json) (items : List α) : Json := .arr (items.map encode)

end FunctionMeter.Json
