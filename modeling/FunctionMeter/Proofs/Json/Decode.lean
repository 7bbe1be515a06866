import FunctionMeter.Json.Decode
import Mathlib

/-!
# Decoding what was encoded

One law for each way to encode: what is encoded is decoded to itself. A record with distinct names
is read by them, whatever the order in which its fields are asked for. A list is decoded item by
item, and fails with any of its items. Where a name occurs once, looking it up finds its own value.
-/

namespace FunctionMeter

section

variable {α β : Type} {f : α → Option β} {xs : List α} {ys : List β}

theorem mapM_eq_some_iff :
    xs.mapM f = some ys ↔ List.Forall₂ (fun a b => f a = some b) xs ys := by
  induction xs generalizing ys with
  | nil =>
      rw [List.mapM_nil, List.forall₂_nil_left_iff]
      exact Option.some_inj.trans eq_comm
  | cons a xs ih =>
      rw [List.mapM_cons, List.forall₂_cons_left_iff]
      constructor
      · intro made
        obtain ⟨b, first, made⟩ := Option.bind_eq_some_iff.mp made
        obtain ⟨rest, others, made⟩ := Option.bind_eq_some_iff.mp made
        exact ⟨b, rest, first, ih.mp others, (Option.some.inj made).symm⟩
      · rintro ⟨b, rest, first, others, rfl⟩
        rw [first, ih.mpr others]
        rfl

theorem mapM_eq_none_iff : xs.mapM f = none ↔ ∃ a ∈ xs, f a = none := by
  induction xs with
  | nil => simp
  | cons a xs ih =>
      rw [List.mapM_cons, List.exists_mem_cons_iff, ← ih]
      cases f a with
      | none => exact ⟨fun _ => .inl rfl, fun _ => rfl⟩
      | some b => cases xs.mapM f <;> simp

/-- Lists that correspond have a partner for every member. -/
theorem exists_mem_of_forall₂ {R : α → β → Prop} (each : List.Forall₂ R xs ys) :
    ∀ b ∈ ys, ∃ a ∈ xs, R a b := by
  induction each with
  | nil => exact nofun
  | cons first _ others =>
      refine List.forall_mem_cons.mpr ⟨⟨_, List.mem_cons_self, first⟩, fun b inside => ?_⟩
      obtain ⟨a, member, related⟩ := others b inside
      exact ⟨a, List.mem_cons_of_mem _ member, related⟩

end

/-- A name that occurs once is found with its own value. -/
theorem lookup_eq_some_iff_mem {α : Type} {members : List (String × α)} {name : String} {value : α}
    (once : (members.map (·.1)).count name ≤ 1) :
    members.lookup name = some value ↔ (name, value) ∈ members := by
  induction members with
  | nil => simp
  | cons member rest ih =>
      obtain ⟨first, found⟩ := member
      rw [List.map_cons] at once
      by_cases same : name = first
      · subst same
        have absent : name ∉ rest.map (·.1) := by
          rw [List.count_cons_self] at once
          exact List.count_eq_zero.mp (by omega)
        have elsewhere : (name, value) ∉ rest := fun inside =>
          absent (List.mem_map_of_mem inside)
        rw [List.lookup_cons_self, List.mem_cons, Option.some_inj]
        simp [elsewhere, eq_comm]
      · have other : (name, value) ≠ (first, found) := fun pair => same (Prod.mk.inj pair).1
        rw [List.count_cons_of_ne (Ne.symm same)] at once
        rw [List.lookup_cons, beq_eq_false_iff_ne.mpr same, List.mem_cons]
        simp only [other, false_or]
        exact ih once

namespace Json

/-- A step of a decoder that succeeds hands its result on. -/
theorem bind_of_some {α β : Type} {x : Option α} {a : α} (found : x = some a)
    (next : α → Option β) : (x >>= next) = next a := by
  rw [found]
  rfl

@[simp] theorem string?_str (s : String) : string? (.str s) = some s := rfl

@[simp] theorem nat?_ofNat (n : Nat) : nat? (ofNat n) = some n := by
  simp [nat?, ofNat]

@[simp] theorem word?_ofWord (n : UInt32) : word? (ofWord n) = some n := by
  have bound : (0 : Int) ≤ n.toNat ∧ (n.toNat : Int) < 0x100000000 := by
    have := n.toNat_lt
    omega
  simp only [word?, ofWord, if_pos bound, Int.toNat_natCast, UInt32.ofNat_toNat]

@[simp] theorem int32?_ofInt32 (n : Int32) : int32? (ofInt32 n) = some n := by
  have bound : -0x80000000 ≤ n.toInt ∧ n.toInt < 0x80000000 := ⟨n.le_toInt, n.toInt_lt⟩
  simp only [int32?, ofInt32, if_pos bound, Int32.ofInt_toInt]

theorem list?_ofList {α : Type} {decode : Json → Option α} {encode : α → Json}
    (inverse : ∀ a, decode (encode a) = some a) (items : List α) :
    list? decode (ofList encode items) = some items := by
  simp only [list?, ofList, List.mapM_map]
  induction items with
  | nil => rfl
  | cons a items ih => simp [inverse a, ih]

theorem lookup_eq_none {members : List (String × Json)} {name : String}
    (absent : name ∉ members.map (·.1)) : members.lookup name = none := by
  rw [List.lookup_eq_none_iff]
  rintro ⟨other, value⟩ inside
  rw [bne_iff_ne]
  rintro rfl
  exact absent (List.mem_map_of_mem inside)

/-- A record with distinct names is read as it is written. -/
theorem fields?_record {members : List (String × Json)} (names : List String)
    (distinct : (members.map (·.1)).Nodup) :
    fields? names (.record members) = some ⟨false, members⟩ := by
  have once : repeats names members = false := by
    induction members with
    | nil => rfl
    | cons member rest ih =>
        obtain ⟨absent, distinct⟩ := List.nodup_cons.mp distinct
        rw [repeats, lookup_eq_none absent, ih distinct, Option.isSome_none, Bool.and_false,
          Bool.or_false]
  simp only [fields?, record, objectFields?, once, Bool.false_eq_true, if_false]

namespace Fields

variable {α : Type} {positional : Bool} {rest : List (String × Json)} {name other : String}
  {value : Json}

@[simp] theorem required_cons_self (decode : Json → Option α) :
    required ⟨positional, (name, value) :: rest⟩ name decode = decode value := by
  rw [required, get?, List.lookup_cons_self]

@[simp] theorem required_cons_of_ne (decode : Json → Option α) (h : name ≠ other) :
    required ⟨positional, (other, value) :: rest⟩ name decode =
      required ⟨positional, rest⟩ name decode := by
  simp only [required, get?, List.lookup_cons, beq_eq_false_iff_ne.mpr h]

@[simp] theorem optional_cons_self (text : String) :
    optional ⟨positional, (name, .str text) :: rest⟩ name string? = some (some text) := by
  rw [optional, get?, List.lookup_cons_self]
  rfl

@[simp] theorem optional_cons_of_ne (decode : Json → Option α) (h : name ≠ other) :
    optional ⟨positional, (other, value) :: rest⟩ name decode =
      optional ⟨positional, rest⟩ name decode := by
  simp only [optional, get?, List.lookup_cons, beq_eq_false_iff_ne.mpr h]

@[simp] theorem optional_nil (decode : Json → Option α) :
    optional ⟨false, []⟩ name decode = some none := rfl

end Fields

end Json

end FunctionMeter
