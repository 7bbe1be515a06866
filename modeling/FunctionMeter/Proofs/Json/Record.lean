import FunctionMeter.Position
import FunctionMeter.Proofs.Json.Decode
import Mathlib

/-!
# What a record tells

A record is an object or an array. `Field` tells which value it has in a field, by the name of a
member or by the place of an item, and `IsRecord` that it leaves no doubt about its fields: no known
name is repeated in an object, and no item is without a name in an array. Decoders are described in
these words, each by a statement of what it accepts; no decoder accepts anything else.
-/

namespace FunctionMeter

namespace Json

/-! ## Values -/

section

variable {j : Json}

theorem string?_eq_some {s : String} : string? j = some s ↔ j = .str s := by
  cases j <;> simp [string?]

theorem bool?_eq_some {b : Bool} : bool? j = some b ↔ j = .bool b := by
  cases j <;> simp [bool?]

theorem word?_eq_some {n : UInt32} : word? j = some n ↔ j = .ofWord n := by
  constructor
  · intro read
    cases j with
    | int i =>
        simp only [word?] at read
        split at read
        · rename_i bound
          obtain rfl := Option.some.inj read
          have small : i.toNat < UInt32.size := by
            show i.toNat < 4294967296
            omega
          rw [ofWord, UInt32.toNat_ofNat_of_lt' small, Int.toNat_of_nonneg bound.1]
        · cases read
    | _ => cases read
  · rintro rfl
    exact word?_ofWord n

theorem int32?_eq_some {n : Int32} : int32? j = some n ↔ j = .ofInt32 n := by
  constructor
  · intro read
    cases j with
    | int i =>
        simp only [int32?] at read
        split at read
        · rename_i bound
          obtain rfl := Option.some.inj read
          rw [ofInt32, Int32.toInt_ofInt_of_le bound.1 bound.2]
        · cases read
    | _ => cases read
  · rintro rfl
    exact int32?_ofInt32 n

theorem list?_eq_some {α : Type} {decode : Json → Option α} {as : List α} :
    list? decode j = some as ↔
      ∃ items, j = .arr items ∧ List.Forall₂ (fun item a => decode item = some a) items as := by
  constructor
  · intro read
    cases j with
    | arr items => exact ⟨items, rfl, mapM_eq_some_iff.mp read⟩
    | _ => cases read
  · rintro ⟨items, rfl, each⟩
    exact mapM_eq_some_iff.mpr each

theorem nullable?_eq_some {α : Type} {decode : Json → Option α} {a? : Option α}
    (proper : decode .null = none) :
    nullable? decode j = some a? ↔ j = .null ∧ a? = none ∨ ∃ a, decode j = some a ∧ a? = some a := by
  cases j with
  | null => simp [nullable?, proper, eq_comm]
  | _ => simp [nullable?, eq_comm]

end

/-! ## Depth -/

theorem depth_le_depthItems {items : List Json} {item : Json} (listed : item ∈ items) :
    item.depth ≤ depthItems items := by
  induction items with
  | nil => cases listed
  | cons first rest ih =>
      rw [depthItems]
      rcases List.mem_cons.mp listed with rfl | later
      · exact Nat.le_max_left _ _
      · exact (ih later).trans (Nat.le_max_right _ _)

theorem depth_le_depthMembers {members : List (String × Json)} {name : String} {value : Json}
    (listed : (name, value) ∈ members) : value.depth ≤ depthMembers members := by
  induction members with
  | nil => cases listed
  | cons first rest ih =>
      rw [depthMembers]
      rcases List.mem_cons.mp listed with rfl | later
      · exact Nat.le_max_left _ _
      · exact (ih later).trans (Nat.le_max_right _ _)

/-! ## Fields -/

/-- The value of a record in a field. -/
inductive Field (names : List String) : Json → String → Json → Prop
  | member {members : List (String × Json)} {name : String} {value : Json}
      (inside : (name, value) ∈ members) : Field names (.obj members) name value
  | item {items : List Json} {name : String} {value : Json}
      (inside : (name, value) ∈ names.zip items) : Field names (.arr items) name value

/-- The fields of a record can be told apart. -/
inductive IsRecord (names : List String) : Json → Prop
  | object {members : List (String × Json)}
      (once : ∀ name ∈ names, (members.map (·.1)).count name ≤ 1) : IsRecord names (.obj members)
  | array {items : List Json} (few : items.length ≤ names.length) : IsRecord names (.arr items)

/-- A field is left out, which only an object can do. -/
def LeavesOut (names : List String) (j : Json) (name : String) : Prop :=
  (∃ members, j = .obj members) ∧ ∀ value, ¬ Field names j name value

/-- What a record tells in an optional field: something, or nothing. -/
def Tells {α : Type} (names : List String) (j : Json) (name : String) (is : α → Json → Prop) :
    Option α → Prop
  | some a => ∃ value, Field names j name value ∧ is a value
  | none => Field names j name .null ∨ LeavesOut names j name

theorem tells_ofOption {α : Type} {names : List String} {members : List (String × Json)}
    {name : String} {encode : α → Json} {a? : Option α}
    (inside : (name, ofOption encode a?) ∈ members) :
    Tells names (.obj members) name (fun a value => value = encode a) a? := by
  cases a? with
  | some a => exact ⟨_, .member inside, rfl⟩
  | none => exact .inl (.member inside)

/-- An array leaves no field out. -/
theorem Tells.exists_field {α : Type} {names : List String} {items : List Json} {name : String}
    {is : α → Json → Prop} {a? : Option α} (told : Tells names (.arr items) name is a?) :
    ∃ value, Field names (.arr items) name value ∧ (value = .null ∨ ∃ a, is a value) := by
  cases a? with
  | some a =>
      obtain ⟨value, field, stands⟩ := told
      exact ⟨value, field, .inr ⟨a, stands⟩⟩
  | none =>
      rcases told with field | ⟨⟨_, object⟩, -⟩
      · exact ⟨_, field, .inl rfl⟩
      · cases object

theorem repeats_eq_false {names : List String} {members : List (String × Json)} :
    repeats names members = false ↔ ∀ name ∈ names, (members.map (·.1)).count name ≤ 1 := by
  induction members with
  | nil => simp [repeats]
  | cons member rest ih =>
      obtain ⟨first, value⟩ := member
      have again : (rest.lookup first).isSome = true ↔ 0 < (rest.map (·.1)).count first := by
        rw [List.count_pos_iff, Option.isSome_iff_ne_none, ne_eq, List.lookup_eq_none_iff]
        simp
      rw [repeats, Bool.or_eq_false_iff, ih, ← Bool.not_eq_true, Bool.and_eq_true,
        List.contains_iff_mem, again]
      constructor
      · rintro ⟨new, once⟩ name known
        have below := once name known
        rw [List.map_cons, List.count_cons]
        split
        · rename_i same
          obtain rfl : first = name := by simpa using same
          have := mt (And.intro known) new
          omega
        · exact below
      · intro once
        constructor
        · rintro ⟨known, more⟩
          have := once first known
          rw [List.map_cons, List.count_cons_self] at this
          omega
        · intro name known
          have := once name known
          rw [List.map_cons] at this
          exact (List.count_le_count_cons ..).trans this

theorem map_fst_zip_sublist (names : List String) (items : List Json) :
    ((names.zip items).map (·.1)).Sublist names := by
  induction names generalizing items with
  | nil => exact .slnil
  | cons name names ih =>
      cases items with
      | nil => exact List.nil_sublist _
      | cons item items => exact (ih items).cons_cons name

theorem count_zip_le {names : List String} (distinct : names.Nodup) (items : List Json)
    (name : String) : ((names.zip items).map (·.1)).count name ≤ 1 :=
  List.nodup_iff_count_le_one.mp ((map_fst_zip_sublist names items).nodup distinct) name

section

variable {names : List String} {j : Json} {fields : Fields}

theorem isRecord_of_fields? (read : fields? names j = some fields) : IsRecord names j := by
  cases j with
  | obj members =>
      simp only [fields?, objectFields?] at read
      split at read
      · cases read
      · rename_i once
        exact .object (repeats_eq_false.mp (Bool.eq_false_iff.mpr once))
  | arr items =>
      simp only [fields?] at read
      split at read
      · cases read
      · rename_i few
        exact .array (Nat.not_lt.mp few)
  | _ => cases read

theorem IsRecord.exists_fields? (record : IsRecord names j) :
    ∃ fields, fields? names j = some fields := by
  cases record with
  | @object members once =>
      refine ⟨⟨false, members⟩, ?_⟩
      simp only [fields?, objectFields?, repeats_eq_false.mpr once, Bool.false_eq_true, if_false]
  | @array items few =>
      refine ⟨⟨true, names.zip items⟩, ?_⟩
      simp only [fields?, Nat.not_lt.mpr few, if_false]

theorem positional_eq_false (read : fields? names j = some fields) :
    fields.positional = false ↔ ∃ members, j = .obj members := by
  cases j with
  | obj members =>
      simp only [fields?, objectFields?] at read
      split at read
      · cases read
      · cases read
        simp
  | arr items =>
      simp only [fields?] at read
      split at read
      · cases read
      · cases read
        simp
  | _ => cases read

variable {name : String}

/-- The fields that are read are those of the record. -/
theorem get?_eq_some (distinct : names.Nodup) (read : fields? names j = some fields)
    (known : name ∈ names) {value : Json} :
    fields.get? name = some value ↔ Field names j name value := by
  have record := isRecord_of_fields? read
  cases record with
  | @object members once =>
      simp only [fields?, objectFields?, repeats_eq_false.mpr once, Bool.false_eq_true,
        if_false] at read
      cases read
      rw [Fields.get?, lookup_eq_some_iff_mem (once name known)]
      refine ⟨.member, fun field => ?_⟩
      cases field with
      | member inside => exact inside
  | @array items few =>
      simp only [fields?, Nat.not_lt.mpr few, if_false] at read
      cases read
      rw [Fields.get?, lookup_eq_some_iff_mem (count_zip_le distinct items name)]
      refine ⟨.item, fun field => ?_⟩
      cases field with
      | item inside => exact inside

/-- A record has one value in a field. -/
theorem Field.unique {value other : Json} (record : IsRecord names j) (distinct : names.Nodup)
    (known : name ∈ names) (field : Field names j name value) (again : Field names j name other) :
    value = other := by
  obtain ⟨fields, read⟩ := record.exists_fields?
  rw [← get?_eq_some distinct read known] at field again
  exact Option.some.inj (field.symm.trans again)

/-- The item of a field stands in the place of its name. -/
theorem Field.getElem?_idxOf {items : List Json} {value : Json} (distinct : names.Nodup)
    (field : Field names (.arr items) name value) : items[names.idxOf name]? = some value := by
  cases field with
  | item inside =>
      obtain ⟨i, place⟩ := List.mem_iff_getElem?.mp inside
      obtain ⟨named, found⟩ := List.getElem?_zip_eq_some.mp place
      obtain ⟨bound, rfl⟩ := List.getElem?_eq_some_iff.mp named
      rw [distinct.idxOf_getElem i bound]
      exact found

variable {α : Type} {decode : Json → Option α}

theorem required_eq_some (distinct : names.Nodup) (read : fields? names j = some fields)
    (known : name ∈ names) {a : α} :
    fields.required name decode = some a ↔
      ∃ value, Field names j name value ∧ decode value = some a := by
  simp only [← get?_eq_some distinct read known, Fields.required]
  cases fields.get? name <;> simp

theorem optional_eq_some (distinct : names.Nodup) (read : fields? names j = some fields)
    (known : name ∈ names) {is : α → Json → Prop}
    (exact : ∀ a value, decode value = some a ↔ is a value) (proper : decode .null = none)
    {a? : Option α} : fields.optional name decode = some a? ↔ Tells names j name is a? := by
  have field (value : Json) : fields.get? name = some value ↔ Field names j name value :=
    get?_eq_some distinct read known
  cases found : fields.get? name with
  | none =>
      have absent (value : Json) : ¬ Field names j name value := by
        rw [← field, found]
        exact nofun
      cases a? with
      | none => simp [Fields.optional, found, Tells, LeavesOut, absent, positional_eq_false read]
      | some a => simp [Fields.optional, found, Tells, absent]
  | some value =>
      have only (other : Json) : Field names j name other ↔ other = value := by
        rw [← field, found, Option.some_inj, eq_comm]
      simp only [Fields.optional, found]
      rw [nullable?_eq_some proper]
      cases a? with
      | none => simp [Tells, LeavesOut, only, eq_comm]
      | some a => simp [Tells, only, exact]

/-- What stands in a field is less deep than the record. -/
theorem Field.depth_lt {value : Json} (field : Field names j name value) : value.depth < j.depth := by
  cases field with
  | @member members _ _ inside =>
      rw [depth, Nat.lt_succ_iff]
      exact depth_le_depthMembers inside
  | @item items _ _ inside =>
      rw [depth, Nat.lt_succ_iff]
      exact depth_le_depthItems (List.of_mem_zip inside).2

end

end Json

/-! ## Positions and ranges -/

open Json (bind_of_some required_eq_some)

namespace Position

/-- A record stands for a position. -/
structure WrittenAs (p : Position) (j : Json) : Prop where
  record : Json.IsRecord fieldNames j
  line : Json.Field fieldNames j "line" (.ofWord p.line)
  character : Json.Field fieldNames j "character" (.ofWord p.character)

theorem ofJson?_eq_some {p : Position} {j : Json} : ofJson? j = some p ↔ p.WrittenAs j := by
  have distinct : fieldNames.Nodup := by decide
  constructor
  · intro made
    obtain ⟨fields, read, made⟩ := Option.bind_eq_some_iff.mp made
    obtain ⟨line, first, made⟩ := Option.bind_eq_some_iff.mp made
    obtain ⟨character, second, made⟩ := Option.bind_eq_some_iff.mp made
    obtain rfl := Option.some.inj made
    simp (disch := decide) only [required_eq_some distinct read, Json.word?_eq_some,
      exists_eq_right] at first second
    exact ⟨Json.isRecord_of_fields? read, first, second⟩
  · rintro ⟨record, line, character⟩
    obtain ⟨fields, read⟩ := record.exists_fields?
    rw [ofJson?, bind_of_some read,
      bind_of_some ((required_eq_some distinct read (by decide)).mpr
        ⟨_, line, Json.word?_ofWord p.line⟩),
      bind_of_some ((required_eq_some distinct read (by decide)).mpr
        ⟨_, character, Json.word?_ofWord p.character⟩)]

theorem writtenAs_toJson (p : Position) : p.WrittenAs p.toJson :=
  ⟨.object (by simp [fieldNames]), .member (by simp), .member (by simp)⟩

end Position

namespace Range

/-- A record stands for a range. -/
structure WrittenAs (r : Range) (j : Json) : Prop where
  record : Json.IsRecord fieldNames j
  start : ∃ value, Json.Field fieldNames j "start" value ∧ r.start.WrittenAs value
  stop : ∃ value, Json.Field fieldNames j "end" value ∧ r.stop.WrittenAs value

theorem ofJson?_eq_some {r : Range} {j : Json} : ofJson? j = some r ↔ r.WrittenAs j := by
  have distinct : fieldNames.Nodup := by decide
  constructor
  · intro made
    obtain ⟨fields, read, made⟩ := Option.bind_eq_some_iff.mp made
    obtain ⟨start, first, made⟩ := Option.bind_eq_some_iff.mp made
    obtain ⟨stop, second, made⟩ := Option.bind_eq_some_iff.mp made
    obtain rfl := Option.some.inj made
    simp (disch := decide) only [required_eq_some distinct read, Position.ofJson?_eq_some]
      at first second
    exact ⟨Json.isRecord_of_fields? read, first, second⟩
  · rintro ⟨record, start, stop⟩
    obtain ⟨fields, read⟩ := record.exists_fields?
    simp only [← Position.ofJson?_eq_some] at start stop
    rw [ofJson?, bind_of_some read,
      bind_of_some ((required_eq_some distinct read (by decide)).mpr start),
      bind_of_some ((required_eq_some distinct read (by decide)).mpr stop)]

theorem writtenAs_toJson (r : Range) : r.WrittenAs r.toJson :=
  ⟨.object (by simp [fieldNames]), ⟨_, .member (by simp), r.start.writtenAs_toJson⟩,
    ⟨_, .member (by simp), r.stop.writtenAs_toJson⟩⟩

end Range

end FunctionMeter
