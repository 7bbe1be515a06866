import FunctionMeter.Proofs.Json.Decode
import FunctionMeter.Proofs.Json.Writer
import Mathlib

/-!
# Members in any order

The order of the members of an object means nothing, and whoever passes a value on may bring them
into an order of their own. A value whose members are reordered at any depth can be written and read
wherever the value itself can. A record with distinct names is decoded from it as well: each field is
found by its name, and its value is reordered in turn.
-/

namespace FunctionMeter.Json

mutual

/-- The same value but for the order of the members of its objects. -/
inductive Reordered : Json → Json → Prop
  | refl (j : Json) : Reordered j j
  | array {items items' : List Json} (each : ReorderedItems items items') :
      Reordered (.arr items) (.arr items')
  | object {members members' shuffled : List (String × Json)}
      (each : ReorderedMembers members members') (order : members'.Perm shuffled) :
      Reordered (.obj members) (.obj shuffled)

inductive ReorderedItems : List Json → List Json → Prop
  | nil : ReorderedItems [] []
  | cons {item item' : Json} {rest rest' : List Json} (first : Reordered item item')
      (others : ReorderedItems rest rest') : ReorderedItems (item :: rest) (item' :: rest')

inductive ReorderedMembers : List (String × Json) → List (String × Json) → Prop
  | nil : ReorderedMembers [] []
  | cons {name : String} {value value' : Json} {rest rest' : List (String × Json)}
      (first : Reordered value value') (others : ReorderedMembers rest rest') :
      ReorderedMembers ((name, value) :: rest) ((name, value') :: rest')

end

theorem ReorderedItems.forall₂ {items items' : List Json} (each : ReorderedItems items items') :
    List.Forall₂ Reordered items items' := by
  cases each with
  | nil => exact .nil
  | cons first others => exact .cons first others.forall₂

theorem ReorderedMembers.forall₂ {members members' : List (String × Json)}
    (each : ReorderedMembers members members') :
    List.Forall₂ (fun m m' => m.1 = m'.1 ∧ Reordered m.2 m'.2) members members' := by
  cases each with
  | nil => exact .nil
  | cons first others => exact .cons ⟨rfl, first⟩ others.forall₂

namespace Reordered

variable {j : Json}

theorem eq_str {s : String} (same : Reordered (.str s) j) : j = .str s := by
  cases same
  rfl

theorem eq_int {i : Int} (same : Reordered (.int i) j) : j = .int i := by
  cases same
  rfl

theorem exists_items {items : List Json} (same : Reordered (.arr items) j) :
    ∃ items', j = .arr items' ∧ List.Forall₂ Reordered items items' := by
  cases same with
  | refl => exact ⟨items, rfl, List.forall₂_same.mpr fun item _ => .refl item⟩
  | array each => exact ⟨_, rfl, each.forall₂⟩

theorem exists_members {members : List (String × Json)} (same : Reordered (.obj members) j) :
    ∃ members' shuffled, j = .obj shuffled ∧ members'.Perm shuffled ∧
      List.Forall₂ (fun m m' => m.1 = m'.1 ∧ Reordered m.2 m'.2) members members' := by
  cases same with
  | refl =>
      exact ⟨members, members, rfl, .refl _, List.forall₂_same.mpr fun m _ => ⟨rfl, .refl m.2⟩⟩
  | object each order => exact ⟨_, _, rfl, order, each.forall₂⟩

end Reordered

/-! ## Writing -/

mutual

theorem Reordered.fits {j j' : Json} {bound : Nat} (same : Reordered j j') (fits : j.Fits bound) :
    j'.Fits bound := by
  cases same with
  | refl => exact fits
  | array each =>
      obtain ⟨inner, rfl, all⟩ := fits_arr_iff.mp fits
      exact fits_arr_iff.mpr ⟨inner, rfl, each.fits all⟩
  | object each order =>
      obtain ⟨inner, rfl, all⟩ := fits_obj_iff.mp fits
      exact fits_obj_iff.mpr ⟨inner, rfl, fun m inside => each.fits all m (order.mem_iff.mpr inside)⟩

theorem ReorderedItems.fits {items items' : List Json} {bound : Nat}
    (each : ReorderedItems items items') (all : ∀ item ∈ items, item.Fits bound) :
    ∀ item ∈ items', item.Fits bound := by
  cases each with
  | nil => exact all
  | cons first others =>
      obtain ⟨fits, rest⟩ := List.forall_mem_cons.mp all
      exact List.forall_mem_cons.mpr ⟨first.fits fits, others.fits rest⟩

theorem ReorderedMembers.fits {members members' : List (String × Json)} {bound : Nat}
    (each : ReorderedMembers members members') (all : ∀ m ∈ members, m.2.Fits bound) :
    ∀ m ∈ members', m.2.Fits bound := by
  cases each with
  | nil => exact all
  | cons first others =>
      obtain ⟨fits, rest⟩ := List.forall_mem_cons.mp all
      exact List.forall_mem_cons.mpr ⟨first.fits fits, others.fits rest⟩

end

/-! ## Decoding -/

section

variable {j : Json}

theorem string?_of_reordered {s : String} (same : Reordered (.str s) j) : string? j = some s := by
  rw [same.eq_str, string?_str]

theorem word?_of_reordered {n : UInt32} (same : Reordered (.ofWord n) j) : word? j = some n := by
  rw [same.eq_int]
  exact word?_ofWord n

theorem int32?_of_reordered {n : Int32} (same : Reordered (.ofInt32 n) j) : int32? j = some n := by
  rw [same.eq_int]
  exact int32?_ofInt32 n

/-- A list is decoded item by item. -/
theorem list?_of_reordered {α : Type} {decode : Json → Option α} {encode : α → Json}
    {items : List α} (same : Reordered (.ofList encode items) j)
    (inverse : ∀ {a j}, Reordered (encode a) j → decode j = some a) :
    list? decode j = some items := by
  obtain ⟨items', rfl, each⟩ := same.exists_items
  rw [list?, mapM_eq_some_iff]
  rw [List.forall₂_map_left_iff] at each
  exact (each.imp fun a j => inverse).flip

/-- A record that is reordered has the same names, each with its own value reordered. -/
theorem Reordered.exists_record {members : List (String × Json)}
    (same : Reordered (.record members) j) (distinct : (members.map (·.1)).Nodup) :
    ∃ shuffled, j = .record shuffled ∧ (shuffled.map (·.1)).Nodup ∧
      ∀ {name value}, (name, value) ∈ members →
        ∃ value', (name, value') ∈ shuffled ∧ Reordered value value' := by
  obtain ⟨members', shuffled, rfl, order, each⟩ := same.exists_members
  have names : members.map (·.1) = members'.map (·.1) := by
    rw [← List.forall₂_eq_eq_eq, List.forall₂_map_left_iff, List.forall₂_map_right_iff]
    exact each.imp fun m m' pair => pair.1
  refine ⟨shuffled, rfl, (order.map _).nodup_iff.mp (names ▸ distinct), ?_⟩
  intro name value inside
  obtain ⟨⟨name', value'⟩, inside', rfl, reordered⟩ :=
    exists_mem_of_forall₂ each.flip (name, value) inside
  exact ⟨value', order.mem_iff.mp inside', reordered⟩

/-- Where names are distinct, a field has the value of its member. -/
theorem required_of_mem {α : Type} {members : List (String × Json)} {name : String} {value : Json}
    {decode : Json → Option α} {a : α} (distinct : (members.map (·.1)).Nodup)
    (inside : (name, value) ∈ members) (decoded : decode value = some a) :
    Fields.required ⟨false, members⟩ name decode = some a := by
  have once := List.nodup_iff_count_le_one.mp distinct name
  rw [Fields.required, Fields.get?, (lookup_eq_some_iff_mem once).mpr inside]
  exact decoded

/-- Every field of a reordered record is decoded from its own value. -/
theorem Reordered.exists_fields {members : List (String × Json)}
    (same : Reordered (.record members) j) (distinct : (members.map (·.1)).Nodup)
    (names : List String) :
    ∃ fields, fields? names j = some fields ∧
      ∀ {α : Type} {name : String} {value : Json} {decode : Json → Option α} {a : α},
        (name, value) ∈ members → (∀ {j}, Reordered value j → decode j = some a) →
        fields.required name decode = some a := by
  obtain ⟨shuffled, rfl, distinct, partner⟩ := same.exists_record distinct
  refine ⟨⟨false, shuffled⟩, fields?_record names distinct, ?_⟩
  intro α name value decode a inside decoded
  obtain ⟨value', inside', reordered⟩ := partner inside
  exact required_of_mem distinct inside' (decoded reordered)

end

/-- Where names are distinct, one member has a name. -/
theorem filter_name_eq {members : List (String × Json)} {name : String} {value : Json}
    (distinct : (members.map (·.1)).Nodup) (inside : (name, value) ∈ members) :
    members.filter (·.1 = name) = [(name, value)] := by
  induction members with
  | nil => cases inside
  | cons member rest ih =>
      obtain ⟨absent, distinct⟩ := List.nodup_cons.mp distinct
      rcases List.mem_cons.mp inside with rfl | later
      · have none : rest.filter (·.1 = name) = [] := by
          rw [List.filter_eq_nil_iff]
          intro other member same
          exact absent (List.mem_map.mpr ⟨other, member, of_decide_eq_true same⟩)
        rw [List.filter_cons_of_pos (by simp), none]
      · have other : member.1 ≠ name := by
          rintro rfl
          exact absent (List.mem_map.mpr ⟨_, later, rfl⟩)
        rw [List.filter_cons_of_neg (by simpa using other), ih distinct later]

/-! ## Sorted members -/

mutual

/-- A value with the members of its objects in the order of their names. -/
def sorted : Json → Json
  | .arr items => .arr (sortedItems items)
  | .obj members => .obj ((sortedMembers members).mergeSort fun a b => !(b.1 < a.1))
  | .null => .null
  | .bool b => .bool b
  | .int i => .int i
  | .real r => .real r
  | .str s => .str s

def sortedItems : List Json → List Json
  | [] => []
  | item :: rest => sorted item :: sortedItems rest

def sortedMembers : List (String × Json) → List (String × Json)
  | [] => []
  | (name, value) :: rest => (name, sorted value) :: sortedMembers rest

end

mutual

theorem reordered_sorted (j : Json) : Reordered j j.sorted := by
  cases j with
  | arr items =>
      rw [sorted]
      exact .array (reordered_sortedItems items)
  | obj members =>
      rw [sorted]
      exact .object (reordered_sortedMembers members) (List.mergeSort_perm ..).symm
  | _ =>
      rw [sorted]
      exact .refl _

theorem reordered_sortedItems (items : List Json) : ReorderedItems items (sortedItems items) := by
  cases items with
  | nil => exact .nil
  | cons item rest =>
      rw [sortedItems]
      exact .cons (reordered_sorted item) (reordered_sortedItems rest)

theorem reordered_sortedMembers (members : List (String × Json)) :
    ReorderedMembers members (sortedMembers members) := by
  cases members with
  | nil => exact .nil
  | cons member rest =>
      rw [sortedMembers]
      exact .cons (reordered_sorted member.2) (reordered_sortedMembers rest)

end

end FunctionMeter.Json
