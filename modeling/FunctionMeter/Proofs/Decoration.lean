import FunctionMeter.Decoration
import FunctionMeter.Proofs.Json.Order
import FunctionMeter.Proofs.Report.Json
import Mathlib

/-!
# Decorations on the wire

Decorations are told apart by the name of their kind, so that clearing a document is never taken for
painting it, not even with nothing. A notice is read back as it was sent, with its URI normalised
once more, and whatever order its members are sent in.
-/

namespace FunctionMeter

open Json (Reordered bind_of_some fields?_record fits_record fits_ofList)

namespace Position

theorem ofJson?_of_reordered {p : Position} {j : Json} (same : Reordered p.toJson j) :
    ofJson? j = some p := by
  obtain ⟨fields, read, field⟩ := same.exists_fields (by simp) fieldNames
  have line : fields.required "line" Json.word? = some p.line :=
    field (by simp) Json.word?_of_reordered
  have character : fields.required "character" Json.word? = some p.character :=
    field (by simp) Json.word?_of_reordered
  rw [ofJson?, bind_of_some read, bind_of_some line, bind_of_some character]

theorem fits_toJson (p : Position) : p.toJson.Fits 1 :=
  fits_record (by simp)

end Position

namespace Range

theorem ofJson?_of_reordered {r : Range} {j : Json} (same : Reordered r.toJson j) :
    ofJson? j = some r := by
  obtain ⟨fields, read, field⟩ := same.exists_fields (by simp) fieldNames
  have start : fields.required "start" Position.ofJson? = some r.start :=
    field (by simp) Position.ofJson?_of_reordered
  have stop : fields.required "end" Position.ofJson? = some r.stop :=
    field (by simp) Position.ofJson?_of_reordered
  rw [ofJson?, bind_of_some read, bind_of_some start, bind_of_some stop]

theorem fits_toJson (r : Range) : r.toJson.Fits 2 :=
  fits_record (by simp [Position.fits_toJson])

end Range

namespace Highlights

theorem ofJson?_of_reordered {h : Highlights} {j : Json} (same : Reordered h.toJson j) :
    ofJson? j = some h := by
  have ranges {rs : List Range} {j : Json} (same : Reordered (.ofList Range.toJson rs) j) :
      Json.list? Range.ofJson? j = some rs :=
    Json.list?_of_reordered same Range.ofJson?_of_reordered
  obtain ⟨fields, read, field⟩ := same.exists_fields (by simp) fieldNames
  have low : fields.required "low" (Json.list? Range.ofJson?) = some h.low :=
    field (by simp) ranges
  have medium : fields.required "medium" (Json.list? Range.ofJson?) = some h.medium :=
    field (by simp) ranges
  have high : fields.required "high" (Json.list? Range.ofJson?) = some h.high :=
    field (by simp) ranges
  rw [ofJson?, bind_of_some read, bind_of_some low, bind_of_some medium, bind_of_some high]

theorem fits_toJson (h : Highlights) : h.toJson.Fits 4 := by
  have ranges (rs : List Range) : Json.Fits (.ofList Range.toJson rs) 3 :=
    fits_ofList fun r _ => r.fits_toJson
  exact fits_record (by simp [ranges])

end Highlights

theorem Category.taggedVariant?_of_reordered {c : Category} {j : Json}
    (same : Reordered (.str c.name) j) : Json.taggedVariant? byName j = some c := by
  rw [same.eq_str]
  exact ofJson?_name c

namespace Label

theorem ofJson?_of_reordered {l : Label} {j : Json} (same : Reordered l.toJson j) :
    ofJson? j = some l := by
  obtain ⟨fields, read, field⟩ := same.exists_fields (by simp) fieldNames
  have position : fields.required "position" Position.ofJson? = some l.position :=
    field (by simp) Position.ofJson?_of_reordered
  have text : fields.required "text" Json.string? = some l.text :=
    field (by simp) Json.string?_of_reordered
  have colour : fields.required "color" Json.string? = some l.colour :=
    field (by simp) Json.string?_of_reordered
  have category :
      fields.required "category" (Json.taggedVariant? Category.byName) = some l.category :=
    field (by simp) Category.taggedVariant?_of_reordered
  have loc : fields.required "loc" Json.word? = some l.loc :=
    field (by simp) Json.word?_of_reordered
  rw [ofJson?, bind_of_some read, bind_of_some position, bind_of_some text, bind_of_some colour,
    bind_of_some category, bind_of_some loc]

theorem fits_toJson (l : Label) : l.toJson.Fits 2 :=
  fits_record (by simp [Position.fits_toJson])

end Label

namespace Decorations

/-- The kind is told by one member, and the others are read as its record. -/
theorem ofJson?_record {members : List (String × Json)} {kind : String}
    (distinct : (members.map (·.1)).Nodup) (inside : ("kind", .str kind) ∈ members) :
    ofJson? (.record members) = ofKind? kind (.record (members.filter (·.1 ≠ "kind"))) := by
  simp only [ofJson?, Json.record, Json.filter_name_eq distinct inside]

theorem ofJson?_of_reordered {d : Decorations} {j : Json} (same : Reordered d.toJson j) :
    ofJson? j = some d := by
  cases d with
  | clear =>
      obtain ⟨members, rfl, distinct, partner⟩ := same.exists_record (by simp)
      obtain ⟨kind, told, sameKind⟩ := partner (List.mem_singleton_self _)
      rw [sameKind.eq_str] at told
      rw [ofJson?_record distinct told]
      rfl
  | paint highlights labels =>
      obtain ⟨members, rfl, distinct, partner⟩ := same.exists_record (by simp)
      have others {name : String} {value : Json} (inside : (name, value) ∈ members)
          (other : name ≠ "kind") : (name, value) ∈ members.filter (·.1 ≠ "kind") :=
        List.mem_filter.mpr ⟨inside, decide_eq_true other⟩
      have distinctOthers : ((members.filter (·.1 ≠ "kind")).map (·.1)).Nodup :=
        distinct.sublist (List.filter_sublist.map _)
      obtain ⟨kind, told, sameKind⟩ := partner List.mem_cons_self
      obtain ⟨first, hasFirst, sameHighlights⟩ := partner (.tail _ (.head _))
      obtain ⟨second, hasSecond, sameLabels⟩ := partner (.tail _ (.tail _ (.head _)))
      rw [sameKind.eq_str] at told
      have painted := Json.required_of_mem distinctOthers (others hasFirst (by decide))
        (Highlights.ofJson?_of_reordered sameHighlights)
      have labelled := Json.required_of_mem distinctOthers (others hasSecond (by decide))
        (Json.list?_of_reordered sameLabels Label.ofJson?_of_reordered)
      rw [ofJson?_record distinct told, ofKind?, bind_of_some (fields?_record _ distinctOthers),
        bind_of_some painted, bind_of_some labelled]

theorem fits_toJson (d : Decorations) : d.toJson.Fits 5 := by
  cases d with
  | clear => exact fits_record (by simp)
  | paint highlights labels =>
      have notes : Json.Fits (.ofList Label.toJson labels) 4 :=
        (fits_ofList fun l _ => l.fits_toJson).mono (by decide)
      exact fits_record (by simp [highlights.fits_toJson, notes])

end Decorations

/-- Normalising the text of the URI gives the URI. -/
def Uri.Normal (u : Uri) : Prop := Uri.parse? u.text = some u

instance (u : Uri) : Decidable u.Normal := inferInstanceAs (Decidable (_ = _))

theorem Uri.ofJson?_of_reordered {u : Uri} {j : Json} (normal : u.Normal)
    (same : Reordered u.toJson j) : ofJson? j = some u := by
  rw [ofJson?, Json.string?_of_reordered same, Option.bind_some]
  exact normal

namespace DecorationNotice

section

variable {m n : DecorationNotice} {j : Json}

theorem ofJson?_of_reordered (normal : n.uri.Normal) (same : Reordered n.toJson j) :
    ofJson? j = some n := by
  obtain ⟨fields, read, field⟩ := same.exists_fields (by simp) fieldNames
  have uri : fields.required "uri" Uri.ofJson? = some n.uri :=
    field (by simp) (Uri.ofJson?_of_reordered normal)
  have version : fields.required "version" Json.int32? = some n.version :=
    field (by simp) Json.int32?_of_reordered
  have decorations : fields.required "decorations" Decorations.ofJson? = some n.decorations :=
    field (by simp) Decorations.ofJson?_of_reordered
  rw [ofJson?, bind_of_some read, bind_of_some uri, bind_of_some version, bind_of_some decorations]

/-- A value stands for one version and for one kind of decorations. -/
theorem eq_of_reordered (first : Reordered m.toJson j) (second : Reordered n.toJson j) :
    m.version = n.version ∧ m.decorations = n.decorations := by
  obtain ⟨fields, read, field⟩ := first.exists_fields (by simp) fieldNames
  obtain ⟨fields', read', field'⟩ := second.exists_fields (by simp) fieldNames
  obtain rfl := Option.some.inj (read.symm.trans read')
  have version : fields.required "version" Json.int32? = some m.version :=
    field (by simp) Json.int32?_of_reordered
  have version' : fields.required "version" Json.int32? = some n.version :=
    field' (by simp) Json.int32?_of_reordered
  have decorations : fields.required "decorations" Decorations.ofJson? = some m.decorations :=
    field (by simp) Decorations.ofJson?_of_reordered
  have decorations' : fields.required "decorations" Decorations.ofJson? = some n.decorations :=
    field' (by simp) Decorations.ofJson?_of_reordered
  exact ⟨Option.some.inj (version.symm.trans version'),
    Option.some.inj (decorations.symm.trans decorations')⟩

theorem fits_toJson (n : DecorationNotice) : n.toJson.Fits 6 :=
  fits_record (by simp [Uri.toJson, n.decorations.fits_toJson])

/-- The text of a notice is read as the value that was written. -/
theorem read?_of_reordered (same : Reordered n.toJson j) :
    Json.read? Json.textDepth j.compact = some j :=
  Json.read?_compact ((same.fits n.fits_toJson).mono (by decide))

end

/-- A notice with a normal URI is read back as it was sent, whatever the order in which the members
of its objects are sent. No two notices are sent as one text unless they agree in their version and
their decorations, whatever their URIs. -/
theorem read_sent (n : DecorationNotice) (normal : n.uri.Normal) :
    (∀ j, Reordered n.toJson j →
      (Json.read? Json.textDepth j.compact >>= ofJson?) = some n) ∧
    ∀ (m : DecorationNotice) (j k : Json), Reordered m.toJson j → Reordered n.toJson k →
      j.compact = k.compact → m.version = n.version ∧ m.decorations = n.decorations := by
  constructor
  · intro j same
    rw [bind_of_some (read?_of_reordered same), ofJson?_of_reordered normal same]
  · intro m j k first second text
    have value : some j = some k := by
      rw [← read?_of_reordered first, text, read?_of_reordered second]
    exact eq_of_reordered first (Option.some.inj value ▸ second)

/-- One function is painted, with a label that cannot be written without escapes. -/
def quoted : DecorationNotice :=
  { uri := ⟨"file", some ⟨"", "", none⟩, "/work/caf%C3%A9.rs", none, none⟩
    version := -1
    decorations := .paint ⟨[⟨⟨0, 0⟩, ⟨4, 1⟩⟩], [], []⟩ [⟨⟨0, 9⟩, "\"5\"\t\\", "#73c991", .low, 5⟩] }

/-- It is read back from its members as they are declared, and from the same members sorted. -/
theorem read_sent_quoted : quoted.uri.Normal ∧
    (Json.read? Json.textDepth quoted.toJson.compact >>= ofJson?) = some quoted ∧
    (Json.read? Json.textDepth quoted.toJson.sorted.compact >>= ofJson?) = some quoted := by
  have normal : quoted.uri.Normal := by decide
  obtain ⟨received, -⟩ := read_sent quoted normal
  exact ⟨normal, received _ (.refl _), received _ (Json.reordered_sorted _)⟩

end DecorationNotice

end FunctionMeter
