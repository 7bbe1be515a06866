import FunctionMeter.Path
import Mathlib

/-!
# Spellings of paths

The components of a path are a start, which tells absolute paths and paths with a leading dot from
others, and what its pieces stand for. To go on from a directory by a name is to append one
component, whether the directory was written with a slash at its end or not.

Several texts have the same components: slashes can be repeated, and dots put between them. Only one
of these texts is well spelled. The order of components is linear, and so is that of paths by their
components.
-/

namespace FunctionMeter.Path

/-- A name that an entry of a directory can have. -/
def IsName (name : String) : Prop := name ≠ "" ∧ name ≠ "." ∧ name ≠ ".." ∧ '/' ∉ name.toList

instance (name : String) : Decidable (IsName name) :=
  inferInstanceAs (Decidable (name ≠ "" ∧ name ≠ "." ∧ name ≠ ".." ∧ '/' ∉ name.toList))

theorem IsName.inner? {name : String} (proper : IsName name) :
    inner? name = some (.normal name) := by
  obtain ⟨given, dot, dots, -⟩ := proper
  rw [Path.inner?, if_neg (not_or.mpr ⟨given, dot⟩), if_neg dots]

/-! ## Start and inner components -/

/-- How a path starts: at the root, at the current directory by a dot, or with neither. -/
def start (path : String) : List Component :=
  if isAbsolute path then [.root]
  else if (pieces path).head? = some "." then [.current]
  else []

/-- The components behind the start. -/
def inner (path : String) : List Component := (pieces path).filterMap inner?

theorem components_eq (path : String) : components path = start path ++ inner path := by
  rw [components, start, inner]
  split_ifs <;> rfl

theorem isAbsolute_eq_start (path : String) : isAbsolute path = decide (start path = [.root]) := by
  rw [start]
  split_ifs with absolute dotted
  · rw [absolute]
    rfl
  · rw [Bool.eq_false_iff.mpr absolute]
    rfl
  · rw [Bool.eq_false_iff.mpr absolute]
    rfl

/-- Whether a component can stand behind the start. -/
def Component.isInner : Component → Bool
  | .root | .current => false
  | .parent | .normal _ => true

theorem filter_isInner_start (path : String) : (start path).filter Component.isInner = [] := by
  rw [start]
  split_ifs <;> rfl

theorem isInner_of_mem_inner {path : String} : ∀ c ∈ inner path, c.isInner = true := by
  intro c member
  obtain ⟨piece, -, stands⟩ := List.mem_filterMap.mp member
  rw [inner?] at stands
  split_ifs at stands
  · cases stands
    rfl
  · cases stands
    rfl

/-- The components of a path tell its start from the rest. -/
theorem inner_eq_filter (path : String) :
    inner path = (components path).filter Component.isInner := by
  rw [components_eq, List.filter_append, filter_isInner_start, List.nil_append,
    List.filter_eq_self.mpr isInner_of_mem_inner]

theorem start_eq_of_components {path path' : String} (same : components path = components path') :
    start path = start path' := by
  have behind : inner path = inner path' := by rw [inner_eq_filter, inner_eq_filter, same]
  rw [components_eq, components_eq, behind] at same
  exact List.append_cancel_right same

theorem parent_mem_components {path : String} :
    Component.parent ∈ components path ↔ Component.parent ∈ inner path := by
  rw [inner_eq_filter, List.mem_filter]
  exact (and_iff_left rfl).symm

/-- A path without `..` spells names. -/
theorem exists_names_of_direct {path : String} (direct : .parent ∉ components path) :
    ∃ names : List String, inner path = names.map .normal := by
  have spelled : inner path ∈ {cs : List Component | ∀ c ∈ cs, c ∈ Set.range Component.normal} := by
    intro c member
    cases c with
    | root => cases isInner_of_mem_inner _ member
    | current => cases isInner_of_mem_inner _ member
    | parent => exact absurd (parent_mem_components.mpr member) direct
    | normal name => exact ⟨name, rfl⟩
  rw [← Set.range_list_map] at spelled
  obtain ⟨names, same⟩ := spelled
  exact ⟨names, same.symm⟩

/-! ## Pieces -/

theorem pieces_ne_nil (path : String) : pieces path ≠ [] := by
  rw [pieces, Ne, List.map_eq_nil_iff]
  exact List.splitOn_ne_nil _ _

theorem pieces_append_slash (before after : String) :
    pieces (before ++ "/" ++ after) = pieces before ++ pieces after := by
  have chars : (before ++ "/" ++ after).toList = before.toList ++ '/' :: after.toList := by simp
  rw [pieces, chars, List.splitOn_append_cons_self, List.map_append, pieces, pieces]

theorem pieces_of_flat {name : String} (flat : '/' ∉ name.toList) : pieces name = [name] := by
  rw [pieces, List.splitOn_eq_singleton flat, List.map_singleton, String.ofList_toList]

theorem pieces_slash (path : String) : pieces (path ++ "/") = pieces path ++ [""] := by
  rw [← String.append_empty (s := path ++ "/"), pieces_append_slash]
  rfl

/-- A path is what its pieces are when slashes stand between them. -/
theorem pieces_injective : Function.Injective pieces := by
  intro path path' same
  have lists : path.toList.splitOn '/' = path'.toList.splitOn '/' :=
    List.map_injective_iff.mpr (fun _ _ => String.ofList_injective) same
  have chars := congrArg (List.intercalate ['/']) lists
  rw [List.intercalate_splitOn, List.intercalate_splitOn] at chars
  exact String.toList_injective chars

/-- Of all paths but the empty one, the absolute ones start with an empty piece. -/
theorem head?_pieces_eq_empty {path : String} (given : path ≠ "") :
    (pieces path).head? = some "" ↔ isAbsolute path = true := by
  cases chars : path.toList with
  | nil => exact absurd (String.toList_injective chars) given
  | cons c cs =>
      rw [pieces, isAbsolute, chars, List.splitOn, List.splitOnP_cons_eq_if_modifyHead]
      by_cases slash : c = '/'
      · simp [slash]
      · simp [slash]

/-! ## Going on from a directory -/

section

variable {directory name : String}

theorem join_ne_empty (given : directory ≠ "") : join directory name ≠ "" := by
  rw [join]
  split_ifs <;> simp [given]

/-- The pieces of a directory stay when more follows, but for an empty last one. -/
theorem exists_pieces_join (given : directory ≠ "") (more : String) :
    ∃ front, front ≠ [] ∧ pieces (join directory more) = front ++ pieces more ∧
      (pieces directory = front ∨ pieces directory = front ++ [""]) := by
  rw [join]
  by_cases slash : directory.toList.getLast? = some '/'
  · obtain ⟨before, ends⟩ := List.getLast?_eq_some_iff.mp slash
    have whole : directory = String.ofList before ++ "/" := by
      apply String.toList_injective
      rw [ends]
      simp
    refine ⟨pieces (String.ofList before), pieces_ne_nil _, ?_, .inr ?_⟩
    · rw [if_pos (by simp [slash]), whole, pieces_append_slash]
    · rw [whole, pieces_slash]
  · refine ⟨pieces directory, pieces_ne_nil _, ?_, .inl rfl⟩
    rw [if_neg (by simp [given, slash]), pieces_append_slash]

theorem pieces_join (given : directory ≠ "") (flat : '/' ∉ name.toList) :
    ∃ front, front ≠ [] ∧ pieces (join directory name) = front ++ [name] ∧
      (pieces directory = front ∨ pieces directory = front ++ [""]) := by
  rw [← pieces_of_flat flat]
  exact exists_pieces_join given name

theorem head?_pieces_join (given : directory ≠ "") (more : String) :
    (pieces (join directory more)).head? = (pieces directory).head? := by
  obtain ⟨front, any, joined, same | same⟩ := exists_pieces_join given more
  · rw [joined, same, List.head?_append_of_ne_nil _ any]
  · rw [joined, same, List.head?_append_of_ne_nil _ any, List.head?_append_of_ne_nil _ any]

theorem isAbsolute_join (given : directory ≠ "") (more : String) :
    isAbsolute (join directory more) = isAbsolute directory := by
  rw [Bool.eq_iff_iff, ← head?_pieces_eq_empty given, ← head?_pieces_eq_empty (join_ne_empty given),
    head?_pieces_join given more]

theorem start_join (given : directory ≠ "") (more : String) :
    start (join directory more) = start directory := by
  rw [start, start, isAbsolute_join given more, head?_pieces_join given more]

theorem inner_join (given : directory ≠ "") (more : String) :
    inner (join directory more) = inner directory ++ inner more := by
  obtain ⟨front, -, joined, same | same⟩ := exists_pieces_join given more
  · rw [inner, joined, List.filterMap_append, inner, same, inner]
  · have blank : [""].filterMap inner? = [] := rfl
    rw [inner, joined, List.filterMap_append, inner, same, List.filterMap_append, blank,
      List.append_nil, inner]

theorem components_join (given : directory ≠ "") (more : String) :
    components (join directory more) = components directory ++ inner more := by
  rw [components_eq, components_eq, start_join given, inner_join given, List.append_assoc]

theorem IsName.inner_eq (proper : IsName name) : inner name = [.normal name] := by
  rw [inner, pieces_of_flat proper.2.2.2, List.filterMap_cons_some proper.inner?, List.filterMap_nil]

end

/-! ## Respelled paths -/

/-- A path with one more slash beside a slash, with one more inner dot, or with a slash at its end. -/
inductive Respells : String → String → Prop
  | slash (before after : String) :
      Respells (before ++ "/" ++ after) (before ++ "/" ++ "/" ++ after)
  | dot (before after : String) :
      Respells (before ++ "/" ++ after) (before ++ "/" ++ "." ++ "/" ++ after)
  | ending (path : String) (given : path ≠ "") : Respells path (path ++ "/")

/-- Two spellings of one path. -/
def Respelled : String → String → Prop := Relation.EqvGen Respells

theorem components_of_blank {path longer blank : String} {front back : List String}
    (given : path ≠ "") (given' : longer ≠ "") (any : front ≠ []) (vanishes : inner? blank = none)
    (short : pieces path = front ++ back) (long : pieces longer = front ++ [blank] ++ back) :
    components longer = components path := by
  have head : (pieces longer).head? = (pieces path).head? := by
    rw [long, short, List.append_assoc, List.head?_append_of_ne_nil _ any,
      List.head?_append_of_ne_nil _ any]
  have absolute : isAbsolute longer = isAbsolute path := by
    rw [Bool.eq_iff_iff, ← head?_pieces_eq_empty given, ← head?_pieces_eq_empty given', head]
  have behind : inner longer = inner path := by
    rw [inner, inner, long, short, List.filterMap_append, List.filterMap_append,
      List.filterMap_append, List.filterMap_cons_none vanishes, List.filterMap_nil, List.append_nil]
  rw [components_eq, components_eq, start, start, absolute, head, behind]

theorem Respells.components_eq {path longer : String} (step : Respells path longer) :
    components longer = components path := by
  have blank : inner? "" = none := rfl
  have dot : inner? "." = none := rfl
  cases step with
  | slash before after =>
      refine components_of_blank (by simp) (by simp) (pieces_ne_nil before) blank
        (pieces_append_slash before after) ?_
      rw [pieces_append_slash, pieces_slash]
  | dot before after =>
      have inside : pieces "." = ["."] := pieces_of_flat (by decide)
      refine components_of_blank (by simp) (by simp) (pieces_ne_nil before) dot
        (pieces_append_slash before after) ?_
      rw [pieces_append_slash, pieces_append_slash, inside]
  | ending _ given =>
      refine components_of_blank given (by simp) (pieces_ne_nil path) blank
        (List.append_nil _).symm ?_
      rw [pieces_slash, List.append_nil]

/-- However a path is spelled, it has the same components. -/
theorem Respelled.components_eq {path path' : String} (same : Respelled path path') :
    components path' = components path := by
  induction same with
  | rel path longer step => exact step.components_eq
  | refl path => rfl
  | symm path path' _ ih => exact ih.symm
  | trans path path' path'' _ _ first second => exact second.trans first

/-! ## Well-spelled paths -/

/-- A path without repeated slashes, without a slash at the end and without inner dots. -/
def WellSpelled (path : String) : Prop :=
  path = "/" ∨ ∀ piece ∈ (pieces path).tail, piece ≠ "" ∧ piece ≠ "."

instance (path : String) : Decidable (WellSpelled path) :=
  inferInstanceAs (Decidable (path = "/" ∨ ∀ piece ∈ (pieces path).tail, piece ≠ "" ∧ piece ≠ "."))

theorem WellSpelled.join {directory name : String} (spelled : WellSpelled directory)
    (given : directory ≠ "") (proper : IsName name) : WellSpelled (join directory name) := by
  obtain ⟨any, dot, -, flat⟩ := proper
  rcases spelled with rfl | plain
  · have joined : pieces (Path.join "/" name) = ["", name] := by
      have whole : Path.join "/" name = "" ++ "/" ++ name := rfl
      rw [whole, pieces_append_slash, pieces_of_flat flat]
      rfl
    right
    rw [joined]
    simp [any, dot]
  · obtain ⟨front, first, joined, same | same⟩ := pieces_join given flat
    · right
      rw [same] at plain
      rw [joined, List.tail_append_of_ne_nil first]
      intro piece member
      rcases List.mem_append.mp member with inside | last
      · exact plain piece inside
      · rw [List.mem_singleton.mp last]
        exact ⟨any, dot⟩
    · rw [same, List.tail_append_of_ne_nil first] at plain
      exact absurd rfl (plain "" (by simp)).1

/-- The piece that a component is written as. -/
def Component.piece : Component → String
  | .root => ""
  | c => c.text

/-- The pieces of the well-spelled path with some components. -/
def spelling : List Component → List String
  | [.root] => ["", ""]
  | components => components.map Component.piece

theorem piece_inner? {piece : String} {c : Component} (stands : inner? piece = some c) :
    c.piece = piece := by
  rw [inner?] at stands
  split_ifs at stands with blank up
  · cases stands
    exact up.symm
  · cases stands
    rfl

theorem map_piece_filterMap_inner? {pieces : List String}
    (plain : ∀ piece ∈ pieces, piece ≠ "" ∧ piece ≠ ".") :
    (pieces.filterMap inner?).map Component.piece = pieces := by
  induction pieces with
  | nil => rfl
  | cons piece pieces ih =>
      obtain ⟨⟨given, dot⟩, others⟩ := List.forall_mem_cons.mp plain
      obtain ⟨c, stands⟩ : ∃ c, inner? piece = some c := by
        rw [inner?, if_neg (not_or.mpr ⟨given, dot⟩)]
        split_ifs
        · exact ⟨_, rfl⟩
        · exact ⟨_, rfl⟩
      rw [List.filterMap_cons_some stands, List.map_cons, piece_inner? stands, ih others]

/-- The pieces of a well-spelled path can be told from its components. -/
theorem WellSpelled.pieces_eq {path : String} (spelled : WellSpelled path) (given : path ≠ "") :
    pieces path = spelling (components path) := by
  rcases spelled with rfl | plain
  · decide
  have each : pieces path = (components path).map Component.piece := by
    have absolute := head?_pieces_eq_empty given
    obtain ⟨first, rest, split⟩ := List.exists_cons_of_ne_nil (pieces_ne_nil path)
    rw [split, List.tail_cons] at plain
    have behind := map_piece_filterMap_inner? plain
    rw [split, List.head?_cons, Option.some_inj] at absolute
    rw [components_eq, start, inner, split]
    split_ifs with rooted dotted
    · obtain rfl := absolute.mpr rooted
      exact congrArg _ behind.symm
    · obtain rfl := Option.some.inj dotted
      exact congrArg _ behind.symm
    · have blank : first ≠ "" := fun empty => rooted (absolute.mp empty)
      have dot : first ≠ "." := fun dot => dotted (congrArg some dot)
      exact (map_piece_filterMap_inner? (List.forall_mem_cons.mpr ⟨⟨blank, dot⟩, plain⟩)).symm
  rw [each, spelling.eq_2]
  intro root
  rw [root] at each
  exact given (pieces_injective each)

/-- A well-spelled path can be told from its components. -/
theorem WellSpelled.eq_of_components {path path' : String} (spelled : WellSpelled path)
    (spelled' : WellSpelled path') (given : path ≠ "") (given' : path' ≠ "")
    (same : components path = components path') : path = path' := by
  apply pieces_injective
  rw [spelled.pieces_eq given, spelled'.pieces_eq given', same]

/-! ## Longer paths -/

/-- A path that goes on from another one by names. -/
structure Extends (path longer : String) : Prop where
  start : start longer = start path
  inner : ∃ names : List String, inner longer = inner path ++ names.map .normal
  spelled : WellSpelled path → WellSpelled longer

namespace Extends

theorem refl (path : String) : Extends path path :=
  ⟨rfl, ⟨[], by simp⟩, id⟩

theorem trans {path longer longest : String} (first : Extends path longer)
    (second : Extends longer longest) : Extends path longest := by
  obtain ⟨names, inner⟩ := first.inner
  obtain ⟨more, inner'⟩ := second.inner
  refine ⟨second.start.trans first.start, ⟨names ++ more, ?_⟩, second.spelled ∘ first.spelled⟩
  rw [inner', inner, List.map_append, List.append_assoc]

theorem join {directory name : String} (given : directory ≠ "") (proper : IsName name) :
    Extends directory (join directory name) where
  start := start_join given name
  inner := ⟨[name], by rw [inner_join given, proper.inner_eq, List.map_singleton]⟩
  spelled spelled := spelled.join given proper

/-- Names do not lead up. -/
theorem direct {path longer : String} (onward : Extends path longer)
    (direct : .parent ∉ components path) : .parent ∉ components longer := by
  obtain ⟨names, inner⟩ := onward.inner
  rw [parent_mem_components] at direct ⊢
  simp [inner, direct]

end Extends

/-! ## The order of paths -/

namespace Component

theorem lt_iff {a b : Component} :
    a < b ↔ a.rank < b.rank ∨ a.rank = b.rank ∧ a.text < b.text := Iff.rfl

theorem eq_of_rank_of_text {a b : Component} (rank : a.rank = b.rank) (text : a.text = b.text) :
    a = b := by
  cases a <;> cases b <;> simp_all [Component.rank, Component.text]

instance : Std.Irrefl (α := Component) (· < ·) where
  irrefl a less := by
    rcases lt_iff.mp less with rank | ⟨-, text⟩
    · exact Nat.lt_irrefl _ rank
    · exact String.lt_irrefl _ text

instance : Trans (α := Component) (· < ·) (· < ·) (· < ·) where
  trans {a b c} first second := by
    rw [lt_iff] at first second ⊢
    rcases first with first | ⟨same, first⟩ <;> rcases second with second | ⟨same', second⟩
    · exact .inl (first.trans second)
    · exact .inl (same' ▸ first)
    · exact .inl (same ▸ second)
    · exact .inr ⟨same.trans same', String.lt_trans first second⟩

instance : Std.Trichotomous (α := Component) (· < ·) where
  trichotomous a b notLess notGreater := by
    rw [lt_iff, not_or, not_and] at notLess notGreater
    have rank : a.rank = b.rank := by omega
    exact eq_of_rank_of_text rank
      (String.le_antisymm (notGreater.2 rank.symm) (notLess.2 rank))

end Component

theorem not_lt_trans {a b c : List Component} (first : ¬ b < a) (second : ¬ c < b) : ¬ c < a := by
  intro less
  by_cases greater : a < b
  · exact second (List.lt_trans less greater)
  · exact second (List.le_antisymm first greater ▸ less)

end FunctionMeter.Path
