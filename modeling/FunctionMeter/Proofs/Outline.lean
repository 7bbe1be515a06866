import FunctionMeter.Outline
import FunctionMeter.Proofs.Json.Grammar
import FunctionMeter.Proofs.Json.Record
import FunctionMeter.Proofs.Json.Writer
import Mathlib

/-!
# Outlines are read whole or not at all

`DocumentSymbol` is a symbol as an editor describes it, and `WrittenAs` tells which JSON values stand
for it: the fields in any order, among others or in an array, an optional field left out or `null`
where it says nothing. The elements of the nested form are exactly the values that stand for a
document symbol, and reading keeps the forest, with names and ranges as they are and kinds by their
numbers.

An element of the nested form has no location, which every element of the flat form must have. So a
list of the nested form is never taken for a flat one. A node with a missing or ill-typed field is
not read, nor is any node above it, nor the list.
-/

namespace FunctionMeter.Outline

open Json (Field IsRecord LeavesOut Tells bind_of_some required_eq_some optional_eq_some)

/-! ## Document symbols -/

/-- A symbol as an editor describes it. -/
structure DocumentSymbol where
  name : String
  detail : Option String
  kind : Int32
  tags : Option (List Int32)
  deprecated : Option Bool
  range : Range
  selectionRange : Range
  children : List DocumentSymbol

namespace DocumentSymbol

mutual

/-- The symbol that is measured: it keeps the name, the ranges and the children. -/
def toSymbol : DocumentSymbol → Symbol
  | ⟨name, _, kind, _, _, range, selectionRange, children⟩ =>
    ⟨name, .ofNumber kind, range, selectionRange, toSymbols children⟩

def toSymbols : List DocumentSymbol → List Symbol
  | [] => []
  | d :: rest => d.toSymbol :: toSymbols rest

end

theorem toSymbols_eq_map (ds : List DocumentSymbol) : toSymbols ds = ds.map toSymbol := by
  induction ds with
  | nil => rfl
  | cons d ds ih => rw [toSymbols, ih, List.map_cons]

/-- The symbol with other symbols for its children. -/
def symbolWith (d : DocumentSymbol) (children : List Symbol) : Symbol :=
  ⟨d.name, .ofNumber d.kind, d.range, d.selectionRange, children⟩

theorem toSymbol_eq (d : DocumentSymbol) : d.toSymbol = d.symbolWith (d.children.map toSymbol) := by
  obtain ⟨name, detail, kind, tags, deprecated, range, selectionRange, children⟩ := d
  rw [toSymbol, toSymbols_eq_map, symbolWith]

/-- A record has all fields of a document symbol but the children. -/
structure HeadedAs (d : DocumentSymbol) (j : Json) : Prop where
  record : IsRecord nestedFieldNames j
  name : Field nestedFieldNames j "name" (.str d.name)
  detail : Tells nestedFieldNames j "detail" (fun s v => v = .str s) d.detail
  kind : Field nestedFieldNames j "kind" (.ofInt32 d.kind)
  tags : Tells nestedFieldNames j "tags" (fun ns v => v = .ofList .ofInt32 ns) d.tags
  deprecated : Tells nestedFieldNames j "deprecated" (fun b v => v = .bool b) d.deprecated
  range : ∃ value, Field nestedFieldNames j "range" value ∧ d.range.WrittenAs value
  selectionRange :
    ∃ value, Field nestedFieldNames j "selectionRange" value ∧ d.selectionRange.WrittenAs value

/-- The items in the field for the children; there are none if the field says nothing. -/
def Holds (j : Json) (items : List Json) : Prop :=
  Field nestedFieldNames j "children" (.arr items) ∨
    items = [] ∧ (Field nestedFieldNames j "children" .null ∨
      LeavesOut nestedFieldNames j "children")

/-- A value stands for a document symbol. -/
inductive WrittenAs : DocumentSymbol → Json → Prop
  | node {d : DocumentSymbol} {j : Json} {items : List Json} (head : d.HeadedAs j)
      (holds : Holds j items) (children : List.Forall₂ WrittenAs d.children items) :
      WrittenAs d j

mutual

/-- One of the values that stand for a document symbol. -/
def toJson : DocumentSymbol → Json
  | ⟨name, detail, kind, tags, deprecated, range, selectionRange, children⟩ =>
    .record [("name", .str name), ("detail", .ofOption .str detail), ("kind", .ofInt32 kind),
      ("tags", .ofOption (.ofList .ofInt32) tags), ("deprecated", .ofOption .bool deprecated),
      ("range", range.toJson), ("selectionRange", selectionRange.toJson),
      ("children", .arr (toJsonAll children))]

def toJsonAll : List DocumentSymbol → List Json
  | [] => []
  | d :: rest => d.toJson :: toJsonAll rest

end

theorem headedAs_toJson (d : DocumentSymbol) : d.HeadedAs d.toJson := by
  obtain ⟨name, detail, kind, tags, deprecated, range, selectionRange, children⟩ := d
  exact
    { record := .object (by simp [nestedFieldNames])
      name := .member (by simp)
      detail := Json.tells_ofOption (by simp)
      kind := .member (by simp)
      tags := Json.tells_ofOption (by simp)
      deprecated := Json.tells_ofOption (by simp)
      range := ⟨_, .member (by simp), range.writtenAs_toJson⟩
      selectionRange := ⟨_, .member (by simp), selectionRange.writtenAs_toJson⟩ }

mutual

theorem writtenAs_toJson (d : DocumentSymbol) : d.WrittenAs d.toJson := by
  have head := d.headedAs_toJson
  obtain ⟨name, detail, kind, tags, deprecated, range, selectionRange, children⟩ := d
  exact .node head (.inl (.member (by simp))) (writtenAs_toJsonAll children)

theorem writtenAs_toJsonAll (ds : List DocumentSymbol) :
    List.Forall₂ WrittenAs ds (toJsonAll ds) := by
  cases ds with
  | nil => exact .nil
  | cons d rest => exact .cons d.writtenAs_toJson (writtenAs_toJsonAll rest)

end

end DocumentSymbol

/-! ## The nested form -/

theorem nestedFieldNames_nodup : nestedFieldNames.Nodup := by decide

theorem numbers_eq_some (ns : List Int32) (value : Json) :
    Json.list? Json.int32? value = some ns ↔ value = .ofList .ofInt32 ns := by
  constructor
  · intro read
    obtain ⟨items, rfl, each⟩ := Json.list?_eq_some.mp read
    simp only [Json.int32?_eq_some] at each
    have same : List.Forall₂ (· = ·) items (ns.map Json.ofInt32) :=
      List.forall₂_map_right_iff.mpr each
    rw [List.forall₂_eq_eq_eq] at same
    exact congrArg Json.arr same
  · rintro rfl
    exact Json.list?_ofList Json.int32?_ofInt32 ns

section

variable {j : Json} {depth : Nat}

/-- The children that are read, given how each of them is read. -/
theorem children_eq_some {fields : Json.Fields} (read : j.fields? nestedFieldNames = some fields)
    {decode : Json → Option Symbol} {symbols : List Symbol} :
    (∃ children, fields.optional "children" (Json.list? decode) = some children ∧
      children.getD [] = symbols) ↔
      ∃ items, DocumentSymbol.Holds j items ∧
        List.Forall₂ (fun item s => decode item = some s) items symbols := by
  have field (children : Option (List Symbol)) :
      fields.optional "children" (Json.list? decode) = some children ↔
        Tells nestedFieldNames j "children" (fun ss value => ∃ items, value = .arr items ∧
          List.Forall₂ (fun item s => decode item = some s) items ss) children :=
    optional_eq_some nestedFieldNames_nodup read (by decide) (fun _ _ => Json.list?_eq_some) rfl
  simp only [field]
  constructor
  · rintro ⟨children, told, rfl⟩
    cases children with
    | none => exact ⟨[], .inr ⟨rfl, told⟩, .nil⟩
    | some ss =>
        obtain ⟨value, field, items, rfl, each⟩ := told
        exact ⟨items, .inl field, each⟩
  · rintro ⟨items, field | ⟨rfl, nothing⟩, each⟩
    · exact ⟨some symbols, ⟨_, field, items, rfl, each⟩, rfl⟩
    · cases each
      exact ⟨none, nothing, rfl⟩

/-- A node is read by its own fields and by its children. -/
theorem symbolWithin?_succ {s : Symbol} : symbolWithin? (depth + 1) j = some s ↔
    ∃ (d : DocumentSymbol) (items : List Json) (symbols : List Symbol), d.HeadedAs j ∧
      DocumentSymbol.Holds j items ∧
      List.Forall₂ (fun item s => symbolWithin? depth item = some s) items symbols ∧
      s = d.symbolWith symbols := by
  have distinct := nestedFieldNames_nodup
  constructor
  · intro made
    obtain ⟨fields, read, made⟩ := Option.bind_eq_some_iff.mp made
    obtain ⟨name, nameRead, made⟩ := Option.bind_eq_some_iff.mp made
    obtain ⟨detail, detailRead, made⟩ := Option.bind_eq_some_iff.mp made
    obtain ⟨kind, kindRead, made⟩ := Option.bind_eq_some_iff.mp made
    obtain ⟨tags, tagsRead, made⟩ := Option.bind_eq_some_iff.mp made
    obtain ⟨deprecated, deprecatedRead, made⟩ := Option.bind_eq_some_iff.mp made
    obtain ⟨range, rangeRead, made⟩ := Option.bind_eq_some_iff.mp made
    obtain ⟨selection, selectionRead, made⟩ := Option.bind_eq_some_iff.mp made
    obtain ⟨children, childrenRead, made⟩ := Option.bind_eq_some_iff.mp made
    obtain rfl := Option.some.inj made
    obtain ⟨items, holds, each⟩ := (children_eq_some read).mp ⟨children, childrenRead, rfl⟩
    simp (disch := decide) only [required_eq_some distinct read, Json.string?_eq_some,
      Json.int32?_eq_some, Range.ofJson?_eq_some, exists_eq_right]
      at nameRead kindRead rangeRead selectionRead
    refine ⟨⟨name, detail, kind, tags, deprecated, range, selection, []⟩, items, _, ?_, holds, each,
      rfl⟩
    exact
      { record := Json.isRecord_of_fields? read
        name := nameRead
        detail := (optional_eq_some distinct read (by decide)
          (fun _ _ => Json.string?_eq_some) rfl).mp detailRead
        kind := kindRead
        tags := (optional_eq_some distinct read (by decide) numbers_eq_some rfl).mp tagsRead
        deprecated := (optional_eq_some distinct read (by decide)
          (fun _ _ => Json.bool?_eq_some) rfl).mp deprecatedRead
        range := rangeRead
        selectionRange := selectionRead }
  · rintro ⟨d, items, symbols, head, holds, each, rfl⟩
    obtain ⟨fields, read⟩ := head.record.exists_fields?
    obtain ⟨children, childrenRead, rfl⟩ := (children_eq_some read).mpr ⟨items, holds, each⟩
    obtain ⟨range, rangeField, rangeIs⟩ := head.range
    obtain ⟨selection, selectionField, selectionIs⟩ := head.selectionRange
    have required {α : Type} {name : String} {value : Json} {decode : Json → Option α} {a : α}
        (known : name ∈ nestedFieldNames) (field : Field nestedFieldNames j name value)
        (is : decode value = some a) : fields.required name decode = some a :=
      (required_eq_some distinct read known).mpr ⟨value, field, is⟩
    rw [symbolWithin?, bind_of_some read,
      bind_of_some (required (by decide) head.name (Json.string?_str d.name)),
      bind_of_some ((optional_eq_some distinct read (by decide)
        (fun _ _ => Json.string?_eq_some) rfl).mpr head.detail),
      bind_of_some (required (by decide) head.kind (Json.int32?_ofInt32 d.kind)),
      bind_of_some ((optional_eq_some distinct read (by decide) numbers_eq_some rfl).mpr head.tags),
      bind_of_some ((optional_eq_some distinct read (by decide)
        (fun _ _ => Json.bool?_eq_some) rfl).mpr head.deprecated),
      bind_of_some (required (by decide) rangeField (Range.ofJson?_eq_some.mpr rangeIs)),
      bind_of_some (required (by decide) selectionField (Range.ofJson?_eq_some.mpr selectionIs)),
      bind_of_some childrenRead]
    rfl

theorem DocumentSymbol.Holds.depth_lt {items : List Json} {item : Json}
    (holds : DocumentSymbol.Holds j items) (listed : item ∈ items) : item.depth < j.depth := by
  rcases holds with field | ⟨rfl, -⟩
  · have inside := Json.depth_le_depthItems listed
    have list := field.depth_lt
    rw [Json.depth] at list
    omega
  · cases listed

/-- A value that stands for a document symbol is read, if the reader goes deep enough. -/
theorem symbolWithin?_of_writtenAs {d : DocumentSymbol} (written : d.WrittenAs j)
    (deep : j.depth < depth) : symbolWithin? depth j = some d.toSymbol := by
  induction depth generalizing d j with
  | zero => omega
  | succ depth ih =>
      cases written with
      | @node _ _ items head holds children =>
          have shallower : ∀ item ∈ items, item.depth < depth := by
            intro item listed
            have := holds.depth_lt listed
            omega
          have each : List.Forall₂ (fun item child => item.depth < depth ∧ child.WrittenAs item)
              items d.children :=
            (List.forall₂_and_left _ _).mpr ⟨shallower, children.flip⟩
          refine symbolWithin?_succ.mpr ⟨d, items, _, head, holds, ?_, d.toSymbol_eq⟩
          rw [List.forall₂_map_right_iff]
          exact each.imp fun item child both => ih both.2 both.1

/-- Whatever is read stands for a document symbol. -/
theorem exists_writtenAs {s : Symbol} (read : symbolWithin? depth j = some s) :
    ∃ d : DocumentSymbol, d.WrittenAs j := by
  induction depth generalizing j s with
  | zero => cases read
  | succ depth ih =>
      obtain ⟨d, items, symbols, head, holds, each, -⟩ := symbolWithin?_succ.mp read
      obtain ⟨children, written⟩ : ∃ ds, List.Forall₂ DocumentSymbol.WrittenAs ds items := by
        clear holds
        induction each with
        | nil => exact ⟨[], .nil⟩
        | cons first _ others =>
            obtain ⟨child, written⟩ := ih first
            obtain ⟨ds, more⟩ := others
            exact ⟨child :: ds, .cons written more⟩
      exact ⟨{ d with children }, .node { head with } holds written⟩

end

/-! ## The flat form -/

theorem flatFieldNames_nodup : flatFieldNames.Nodup := by decide

/-- A document symbol without a location is no element of the flat form. -/
theorem isFlatSymbol_of_writtenAs {d : DocumentSymbol} {j : Json} (written : d.WrittenAs j)
    (unplaced : j.member? "location" = none) : isFlatSymbol j = false := by
  by_contra flat
  rw [Bool.not_eq_false, isFlatSymbol, Option.isSome_iff_exists] at flat
  obtain ⟨_, made⟩ := flat
  obtain ⟨fields, read, made⟩ := Option.bind_eq_some_iff.mp made
  obtain ⟨name, -, made⟩ := Option.bind_eq_some_iff.mp made
  obtain ⟨kind, kindRead, made⟩ := Option.bind_eq_some_iff.mp made
  obtain ⟨tags, -, made⟩ := Option.bind_eq_some_iff.mp made
  obtain ⟨deprecated, -, made⟩ := Option.bind_eq_some_iff.mp made
  obtain ⟨_, placeRead, -⟩ := Option.bind_eq_some_iff.mp made
  simp (disch := decide) only [required_eq_some flatFieldNames_nodup read, Json.int32?_eq_some,
    exists_eq_right] at kindRead placeRead
  cases written with
  | node head holds children =>
      cases head.record with
      | object once =>
          obtain ⟨place, field, -⟩ := placeRead
          cases field with
          | member inside =>
              rw [Json.member?, List.lookup_eq_none_iff] at unplaced
              exact absurd rfl (bne_iff_ne.mp (unplaced _ inside))
      | @array items few =>
          -- The second item of an array is the kind in one form and the detail in the other.
          have number := kindRead.getElem?_idxOf flatFieldNames_nodup
          obtain ⟨value, field, text⟩ := head.detail.exists_field
          have second := field.getElem?_idxOf nestedFieldNames_nodup
          obtain rfl : value = .ofInt32 kind := Option.some.inj (second.symm.trans number)
          rcases text with null | ⟨s, string⟩
          · cases null
          · cases string

/-! ## Faults -/

/-- The fields that a node of the nested form must have. -/
def requiredNames : List String := ["name", "kind", "range", "selectionRange"]

/-- What may stand in a field of the nested form. -/
def Typed : String → Json → Prop
  | "name", value => ∃ s, value = .str s
  | "kind", value => ∃ n, value = .ofInt32 n
  | "range", value => ∃ r : Range, r.WrittenAs value
  | "selectionRange", value => ∃ r : Range, r.WrittenAs value
  | "detail", value => value = .null ∨ ∃ s, value = .str s
  | "tags", value => value = .null ∨ ∃ ns, value = .ofList .ofInt32 ns
  | "deprecated", value => value = .null ∨ ∃ b, value = .bool b
  | "children", value => value = .null ∨ ∃ items, value = .arr items
  | _, _ => True

/-- A node lacks a required field, or something else than it should stands in a field. -/
inductive Faulty (j : Json) : Prop
  | lacking {name : String} (required : name ∈ requiredNames)
      (absent : ∀ value, ¬ Field nestedFieldNames j name value)
  | illTyped {name : String} {value : Json} (field : Field nestedFieldNames j name value)
      (other : ¬ Typed name value)

/-- The nodes of a list at any depth. -/
inductive Within (items : List Json) : Json → Prop
  | top {j : Json} (listed : j ∈ items) : Within items j
  | child {parent j : Json} {kids : List Json} (above : Within items parent)
      (field : Field nestedFieldNames parent "children" (.arr kids)) (listed : j ∈ kids) :
      Within items j

/-- What stands in an optional field is `null` or what the field is for. -/
theorem typed_of_tells {α : Type} {j value : Json} {name : String} {is : α → Json → Prop}
    {a? : Option α} (record : IsRecord nestedFieldNames j) (known : name ∈ nestedFieldNames)
    (told : Tells nestedFieldNames j name is a?) (field : Field nestedFieldNames j name value) :
    value = .null ∨ ∃ a, is a value := by
  have only {other : Json} (again : Field nestedFieldNames j name other) : value = other :=
    field.unique record nestedFieldNames_nodup known again
  cases a? with
  | some a =>
      obtain ⟨other, again, stands⟩ := told
      rw [only again]
      exact .inr ⟨a, stands⟩
  | none =>
      rcases told with again | ⟨-, absent⟩
      · exact .inl (only again)
      · exact absurd field (absent value)

theorem DocumentSymbol.WrittenAs.not_faulty {d : DocumentSymbol} {j : Json}
    (written : d.WrittenAs j) : ¬ Faulty j := by
  obtain ⟨head, holds, -⟩ := written
  have only {name : String} {value other : Json} (known : name ∈ nestedFieldNames)
      (field : Field nestedFieldNames j name value)
      (again : Field nestedFieldNames j name other) : value = other :=
    field.unique head.record nestedFieldNames_nodup known again
  intro fault
  cases fault with
  | @lacking name required absent =>
      simp only [requiredNames, List.mem_cons, List.not_mem_nil, or_false] at required
      rcases required with rfl | rfl | rfl | rfl
      · exact absent _ head.name
      · exact absent _ head.kind
      · obtain ⟨value, field, -⟩ := head.range
        exact absent value field
      · obtain ⟨value, field, -⟩ := head.selectionRange
        exact absent value field
  | @illTyped name value field other =>
      apply other
      rw [Typed.eq_def]
      split
      · exact ⟨_, only (by decide) field head.name⟩
      · exact ⟨_, only (by decide) field head.kind⟩
      · obtain ⟨range, again, stands⟩ := head.range
        rw [only (by decide) field again]
        exact ⟨_, stands⟩
      · obtain ⟨range, again, stands⟩ := head.selectionRange
        rw [only (by decide) field again]
        exact ⟨_, stands⟩
      · exact typed_of_tells head.record (by decide) head.detail field
      · exact typed_of_tells head.record (by decide) head.tags field
      · exact typed_of_tells head.record (by decide) head.deprecated field
      · rcases holds with again | ⟨-, again | ⟨-, absent⟩⟩
        · exact .inr ⟨_, only (by decide) field again⟩
        · exact .inl (only (by decide) field again)
        · exact absurd field (absent value)
      · trivial

/-- If a list is read, then each of its nodes stands for a document symbol. -/
theorem Within.exists_writtenAs {items : List Json} {j : Json} (inside : Within items j)
    (top : ∀ j ∈ items, ∃ d : DocumentSymbol, d.WrittenAs j) :
    ∃ d : DocumentSymbol, d.WrittenAs j := by
  induction inside with
  | top listed => exact top _ listed
  | @child parent j kids _ field listed ih =>
      obtain ⟨d, ⟨head, holds, children⟩⟩ := ih
      rename_i held
      obtain rfl : held = kids := by
        rcases holds with again | ⟨-, again | ⟨-, absent⟩⟩
        · exact Json.arr.inj (again.unique head.record nestedFieldNames_nodup (by decide) field)
        · cases again.unique head.record nestedFieldNames_nodup (by decide) field
        · exact absurd field (absent _)
      obtain ⟨d, -, written⟩ := exists_mem_of_forall₂ children j listed
      exact ⟨d, written⟩

/-! ## Responses -/

section

variable {items : List Json} {text : String}

/-- A text of a list is read as that list, unless it nests too deep. -/
theorem read_eq (spelled : (Json.arr items).SpelledBy text) :
    read text = ofJson (.arr items) ∨
      read text = .error .malformed ∧ Json.textDepth < (Json.arr items).depth := by
  rw [read]
  cases found : Json.read? Json.textDepth text with
  | some j =>
      obtain rfl := spelled.eq_of_read? found
      exact .inl rfl
  | none =>
      refine .inr ⟨rfl, ?_⟩
      by_contra shallow
      rw [spelled.read? (Nat.not_lt.mp shallow)] at found
      cases found

/-- A list of document symbols without locations is read as it is. -/
theorem ofJson_of_writtenAs {forest : List DocumentSymbol}
    (written : List.Forall₂ DocumentSymbol.WrittenAs forest items)
    (unplaced : ∀ j ∈ items, j.member? "location" = none) :
    ofJson (.arr items) = .ok (forest.map DocumentSymbol.toSymbol) := by
  have symbols : items.mapM symbol? = some (forest.map DocumentSymbol.toSymbol) := by
    rw [mapM_eq_some_iff, List.forall₂_map_right_iff]
    exact (written.imp fun d j written =>
      symbolWithin?_of_writtenAs written (Nat.lt_succ_self j.depth)).flip
  cases written with
  | nil => rfl
  | @cons d j _ _ first others =>
      have nested := isFlatSymbol_of_writtenAs first (unplaced j List.mem_cons_self)
      simp only [ofJson, List.isEmpty_cons, List.all_cons, nested, Bool.false_and,
        Bool.false_eq_true, if_false, symbols]

/-- A list with a fault at any depth is not read. -/
theorem ofJson_of_faulty {j : Json} (other : items.all isFlatSymbol = false)
    (inside : Within items j) (fault : Faulty j) : ofJson (.arr items) = .error .malformed := by
  have nothing : items.mapM symbol? = none := by
    by_contra something
    obtain ⟨symbols, made⟩ := Option.ne_none_iff_exists'.mp something
    have top : ∀ j ∈ items, ∃ d : DocumentSymbol, d.WrittenAs j := by
      intro j listed
      obtain ⟨s, -, read⟩ := exists_mem_of_forall₂ (mapM_eq_some_iff.mp made).flip j listed
      exact exists_writtenAs read
    obtain ⟨d, written⟩ := inside.exists_writtenAs top
    exact written.not_faulty fault
  have any : items.isEmpty = false := by
    cases items with
    | nil => cases other
    | cons j items => rfl
  simp only [ofJson, any, other, nothing, Bool.false_eq_true, if_false]

/-- What is read of the text of a list. If its elements stand for document symbols without locations,
it is never taken for the flat form, and unless it nests too deep it is read as the forest of these
symbols. If some node at any depth has a fault and the list is not of the flat form, nothing is
read. -/
theorem read_whole_or_refused (spelled : (Json.arr items).SpelledBy text) :
    (∀ forest : List DocumentSymbol, List.Forall₂ DocumentSymbol.WrittenAs forest items →
      (∀ j ∈ items, j.member? "location" = none) →
      read text ≠ .error .flat ∧
        ((Json.arr items).depth ≤ 127 → read text = .ok (forest.map DocumentSymbol.toSymbol))) ∧
    (items.all isFlatSymbol = false → (∃ j, Within items j ∧ Faulty j) →
      read text = .error .malformed) := by
  constructor
  · intro forest written unplaced
    have made := ofJson_of_writtenAs written unplaced
    rcases read_eq spelled with same | ⟨refused, deep⟩
    · rw [same, made]
      exact ⟨nofun, fun _ => rfl⟩
    · rw [refused]
      refine ⟨nofun, fun shallow => ?_⟩
      exact absurd shallow (Nat.not_le.mpr deep)
  · rintro other ⟨j, inside, fault⟩
    rcases read_eq spelled with same | ⟨refused, -⟩
    · rw [same, ofJson_of_faulty other inside fault]
    · exact refused

end

/-- A class with a method. -/
def greeter : DocumentSymbol :=
  ⟨"Greeter", none, 5, none, some false, ⟨⟨0, 0⟩, ⟨4, 1⟩⟩, ⟨⟨0, 6⟩, ⟨0, 13⟩⟩,
    [⟨"\"greet\"", some "()", 6, some [1], none, ⟨⟨1, 2⟩, ⟨3, 3⟩⟩, ⟨⟨1, 2⟩, ⟨1, 7⟩⟩, []⟩]⟩

/-- A method with a kind that is no number. -/
def unkindMethod : Json :=
  .obj [("kind", .str "method"), ("name", .str "greet"),
    ("range", Range.toJson ⟨⟨1, 2⟩, ⟨3, 3⟩⟩), ("selectionRange", Range.toJson ⟨⟨1, 2⟩, ⟨1, 7⟩⟩)]

/-- The class of such a method. -/
def unkindClass : Json :=
  .obj [("children", .arr [unkindMethod]), ("kind", .int 5), ("name", .str "Greeter"),
    ("range", Range.toJson ⟨⟨0, 0⟩, ⟨4, 1⟩⟩), ("selectionRange", Range.toJson ⟨⟨0, 6⟩, ⟨0, 13⟩⟩)]

theorem read_whole_or_refused_greeter :
    read (Json.arr [greeter.toJson]).compact =
      .ok [⟨"Greeter", .other, ⟨⟨0, 0⟩, ⟨4, 1⟩⟩, ⟨⟨0, 6⟩, ⟨0, 13⟩⟩,
        [⟨"\"greet\"", .method, ⟨⟨1, 2⟩, ⟨3, 3⟩⟩, ⟨⟨1, 2⟩, ⟨1, 7⟩⟩, []⟩]⟩] ∧
    read (Json.arr [unkindClass]).compact = .error .malformed := by
  constructor
  · have spelled : (Json.arr [greeter.toJson]).SpelledBy (Json.arr [greeter.toJson]).compact :=
      Json.spelledBy_compact (by simp [Json.Writable, Json.WritableItems, Json.WritableMembers,
        Json.spellsNumber_writeInt, greeter, DocumentSymbol.toJson, DocumentSymbol.toJsonAll,
        Range.toJson, Position.toJson, Json.record, Json.ofWord, Json.ofInt32, Json.ofOption,
        Json.ofList])
    have written := DocumentSymbol.writtenAs_toJsonAll [greeter]
    exact ((read_whole_or_refused spelled).1 [greeter] written (by decide)).2 (by decide)
  · have spelled : (Json.arr [unkindClass]).SpelledBy (Json.arr [unkindClass]).compact :=
      Json.spelledBy_compact (by simp [Json.Writable, Json.WritableItems, Json.WritableMembers,
        Json.spellsNumber_writeInt, unkindClass, unkindMethod, Range.toJson, Position.toJson,
        Json.record, Json.ofWord])
    have inside : Within [unkindClass] unkindMethod :=
      .child (.top (.head _)) (.member (.head _)) (.head _)
    have fault : Faulty unkindMethod := by
      refine .illTyped (.member (.head _)) ?_
      rintro ⟨kind, number⟩
      cases number
    exact (read_whole_or_refused spelled).2 (by decide) ⟨unkindMethod, inside, fault⟩

end FunctionMeter.Outline
