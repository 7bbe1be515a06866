import FunctionMeter.Proofs.Tree.Walk
import Mathlib

/-!
# Constructors by their names

C++ has no syntax of its own for constructors: a function definition is one by its name. Outside
classes and namespaces the name has to repeat its owner, as in `Point::Point`. Inside, the name
alone is compared with that of the nearest class or namespace, and the two are not told apart.

A scoped name is divided at its last `::`. Where colons crowd, as in `a:::b`, this is the last place
where two of them stand side by side, so the part behind it starts with no colon.
-/

namespace FunctionMeter

namespace Language

variable {name owner own before after : List Char}

/-- The mark between the parts of a scoped name. -/
def scope : List Char := [':', ':']

/-! ## The first mark of a text -/

theorem atScope_cons {c : Char} {rest : List Char} (other : ¬ scope <+: c :: rest) :
    atScope (c :: rest) = (atScope rest).map fun (before, after) => (c :: before, after) := by
  apply atScope.eq_3
  rintro rest' rfl rfl
  exact other ⟨rest', rfl⟩

/-- A text without the mark is not divided. -/
theorem atScope_of_not_infix {cs : List Char} (without : ¬ scope <:+: cs) : atScope cs = none := by
  induction cs with
  | nil => rfl
  | cons c rest ih =>
      rw [List.infix_cons_iff, not_or] at without
      rw [atScope_cons without.1, ih without.2, Option.map_none]

/-- A text is divided at a mark before which there is none, also not with the first colon of it. -/
theorem atScope_append (first : ¬ scope <:+: before ++ [':']) (after : List Char) :
    atScope (before ++ scope ++ after) = some (before, after) := by
  induction before with
  | nil => rfl
  | cons c before ih =>
      rw [List.cons_append, List.infix_cons_iff, not_or] at first
      have other : ¬ scope <+: c :: (before ++ scope ++ after) := by
        intro begins
        apply first.1
        refine List.prefix_of_prefix_length_le begins ?_ (by simp [scope])
        exact ⟨':' :: after, by simp [scope]⟩
      rw [List.cons_append, List.cons_append, atScope_cons other, ih first.2, Option.map_some]

theorem exists_first_scope {cs : List Char} (inside : scope <:+: cs) :
    ∃ before after, cs = before ++ scope ++ after ∧ ¬ scope <:+: before ++ [':'] := by
  induction cs with
  | nil => exact absurd (List.infix_nil.mp inside) (by decide)
  | cons c rest ih =>
      by_cases begins : scope <+: c :: rest
      · obtain ⟨after, same⟩ := begins
        exact ⟨[], after, same.symm, by decide⟩
      · have later := (List.infix_cons_iff.mp inside).resolve_left begins
        obtain ⟨before, after, rfl, first⟩ := ih later
        refine ⟨c :: before, after, by simp, ?_⟩
        rw [List.cons_append, List.infix_cons_iff, not_or]
        refine ⟨fun starts => begins (starts.trans ?_), first⟩
        exact ⟨':' :: after, by simp [scope]⟩

/-! ## The last two parts of a name -/

/-- A part of a scoped name: the mark is not in it, and it does not start with a colon. -/
def IsPart (part : List Char) : Prop := ¬ scope <:+: part ∧ part.head? ≠ some ':'

theorem isPart_iff {part : List Char} : IsPart part ↔ ¬ scope <:+: ':' :: part := by
  have begins : scope <+: ':' :: part ↔ part.head? = some ':' := by
    cases part with
    | nil => decide
    | cons c part => simp [scope, List.cons_prefix_cons, eq_comm]
  rw [List.infix_cons_iff, not_or, begins, IsPart, and_comm]

/-- The name ends in the same part twice. -/
def RepeatsOwner (name : List Char) : Prop :=
  ∃ part, IsPart part ∧ (name = part ++ scope ++ part ∨
    ∃ before, name = before ++ scope ++ part ++ scope ++ part)

theorem reverse_scoped (rest own : List Char) :
    (rest ++ scope ++ own).reverse = own.reverse ++ scope ++ rest.reverse := by
  simp [scope]

theorem infix_reverse_iff {cs : List Char} : scope <:+: cs.reverse ↔ scope <:+: cs := by
  rw [← List.reverse_infix, List.reverse_reverse]
  rfl

theorem isPart_reverse {part : List Char} : IsPart part ↔ ¬ scope <:+: part.reverse ++ [':'] := by
  rw [isPart_iff, ← List.reverse_cons, infix_reverse_iff]

theorem exists_last_scope (inside : scope <:+: name) :
    ∃ rest own, name = rest ++ scope ++ own ∧ IsPart own := by
  obtain ⟨after, before, same, first⟩ := exists_first_scope (infix_reverse_iff.mpr inside)
  refine ⟨before.reverse, after.reverse, ?_, ?_⟩
  · rw [← List.reverse_reverse name, same, reverse_scoped]
  · rw [isPart_reverse, List.reverse_reverse]
    exact first

theorem atScope_reverse (part : IsPart own) (rest : List Char) :
    atScope (rest ++ scope ++ own).reverse = some (own.reverse, rest.reverse) := by
  rw [reverse_scoped, atScope_append (isPart_reverse.mp part)]

theorem scopedName?_of_plain (without : ¬ scope <:+: name) : scopedName? name = none := by
  rw [scopedName?, atScope_of_not_infix (mt infix_reverse_iff.mp without), Option.map_none]

theorem scopedName?_of_two (part : IsPart own) (single : ¬ scope <:+: owner) :
    scopedName? (owner ++ scope ++ own) = some (owner, own) := by
  have none : atScope owner.reverse = none := atScope_of_not_infix (mt infix_reverse_iff.mp single)
  simp only [scopedName?, atScope_reverse part, none, Option.map_some, List.reverse_reverse]

theorem scopedName?_of_more (part : IsPart own) (partOwner : IsPart owner) (before : List Char) :
    scopedName? (before ++ scope ++ owner ++ scope ++ own) = some (owner, own) := by
  simp only [scopedName?, atScope_reverse part, atScope_reverse partOwner, Option.map_some,
    List.reverse_reverse]

/-- Outside classes and namespaces a constructor repeats its owner. -/
theorem isConstructorName_none {name : String} :
    isConstructorName name none = true ↔ RepeatsOwner name.toList := by
  rw [isConstructorName]
  constructor
  · intro repeats
    by_cases marked : scope <:+: name.toList
    · obtain ⟨rest, own, same, part⟩ := exists_last_scope marked
      by_cases deeper : scope <:+: rest
      · obtain ⟨before, owner, rfl, partOwner⟩ := exists_last_scope deeper
        rw [same, scopedName?_of_more part partOwner] at repeats
        obtain rfl : own = owner := of_decide_eq_true repeats
        exact ⟨own, part, .inr ⟨before, same⟩⟩
      · rw [same, scopedName?_of_two part deeper] at repeats
        obtain rfl : own = rest := of_decide_eq_true repeats
        exact ⟨own, part, .inl same⟩
    · rw [scopedName?_of_plain marked] at repeats
      cases repeats
  · rintro ⟨part, isPart, same | ⟨before, same⟩⟩
    · rw [same, scopedName?_of_two isPart isPart.1]
      exact decide_eq_true rfl
    · rw [same, scopedName?_of_more isPart isPart]
      exact decide_eq_true rfl

/-! ## Kinds of function definitions -/

theorem role_cpp_definition {node : Node} (definition : node.kind = "function_definition") :
    role .cpp node = some (.callable .function) := by
  simp only [role, definition]

theorem refineKind_cpp_inside (name owner : String) :
    refineKind .cpp .function name (some (.container, owner)) =
      if name = owner then .constructor else .method := by
  show (if isConstructorName name (some owner) then SymbolKind.constructor else .method) = _
  simp only [isConstructorName, decide_eq_true_eq]

theorem refineKind_cpp_outside (name : String) {enclosing : Option (Role × String)}
    (outside : ¬ ∃ owner, enclosing = some (.container, owner)) :
    refineKind .cpp .function name enclosing =
      if isConstructorName name none then .constructor else .function := by
  have none : enclosing.filter (·.1.isContainer) = none := by
    rw [Option.filter_eq_none_iff]
    rintro ⟨role, owner⟩ rfl
    cases role with
    | container => exact absurd ⟨owner, rfl⟩ outside
    | callable base => exact Bool.false_ne_true
  simp [refineKind, none]

end Language

namespace Source

variable {source : Source} {nodes : List Node} {address above : List Nat} {node owner : Node}
variable {role : Role} {first : Nat} {enclosing surrounding : Option (Role × String)}

/-- What surrounds a node is the nearest node with a role above it. -/
theorem Surrounds.eq_of_encloses (h : Surrounds source nodes first enclosing address surrounding)
    (encloses : source.language.Encloses nodes above address)
    (stands : Node.at? nodes above = some owner) (has : source.language.role owner = some role) :
    surrounding = some (role, source.name owner) := by
  cases h with
  | outermost k alone top => exact absurd alone encloses.not_outermost
  | within k nearest standsOwn hasOwn inside =>
      rw [encloses.unique nearest, stands] at standsOwn
      obtain rfl := Option.some.inj standsOwn
      obtain rfl := Option.some.inj (has.symm.trans hasOwn)
      rfl

/-- The kind of a function definition, by its name and by the nearest node with a role above it. -/
structure DefinitionKind (source : Source) (root : Node) (address : List Nat) (node : Node)
    (kind : SymbolKind) : Prop where
  /-- A definition in a class or a namespace is a constructor if it has the name of it. -/
  inside : ∀ above owner, source.language.Encloses root.children above address →
    Node.at? root.children above = some owner → source.language.role owner = some .container →
      kind = if source.name node = source.name owner then .constructor else .method
  /-- Any other definition is a constructor if its name ends in the same part twice. -/
  outside : (¬ ∃ above, source.language.Encloses root.children above address ∧
    source.language.roleAt? root.children above = some .container) →
      (kind = .constructor ↔ Language.RepeatsOwner (source.name node).toList) ∧
      (kind = .constructor ∨ kind = .function)

/-- Each function definition of a C++ tree has a symbol, at its place among the symbols. Where the
nearest node with a role is no class and no namespace, the symbol is a constructor exactly if its
name is `X::X` or ends in `::X::X`. In a class or a namespace it is one exactly if it has the name of
this class or namespace, so `X::X` is a method there, and a function with the name of its namespace
is a constructor. -/
theorem cpp_constructors (source : Source) (cpp : source.language = .cpp) (root : Node)
    (address : List Nat) (node : Node) (found : Node.at? root.children address = some node)
    (definition : node.kind = "function_definition") :
    ∃ s, Symbol.at? (source.symbols root) (source.place root.children 0 address) = some s ∧
      source.StandsFor s node ∧ source.DefinitionKind root address node s.kind := by
  have has : source.language.role node = some (.callable .function) := by
    rw [cpp]
    exact Language.role_cpp_definition definition
  obtain ⟨surrounding, surrounds, stands⟩ := at?_symbols found has
  have kind : source.kind node surrounding (.callable .function) =
      Language.refineKind .cpp .function (source.name node) surrounding := by
    rw [Source.kind, cpp]
  refine ⟨_, stands, ⟨_, surrounding, has, rfl⟩, ?_⟩
  show source.DefinitionKind root address node
    (source.kind node surrounding (.callable .function))
  rw [kind]
  constructor
  · intro above owner encloses standsOwner container
    rw [surrounds.eq_of_encloses encloses standsOwner container, Language.refineKind_cpp_inside]
  · intro outside
    rw [Language.refineKind_cpp_outside _ (mt surrounds.container_iff.mp outside),
      ← Language.isConstructorName_none]
    split
    · rename_i repeats
      exact ⟨⟨fun _ => repeats, fun _ => rfl⟩, .inl rfl⟩
    · rename_i different
      refine ⟨⟨fun same => ?_, fun repeats => absurd repeats different⟩, .inr rfl⟩
      cases same

/-- A constructor stands in a namespace and once more behind it. The namespace also has a function
with its own name. -/
def scopedText : Document :=
  ⟨default, 1,
    "namespace geo \x7b\nPoint::Point() \x7b\n\x7d\nvoid geo() \x7b\n\x7d\n\x7d\n" ++
      "Point::Point() \x7b\n\x7d\n"⟩

/-- The definition of `Point::Point` from the start of a row on. -/
def pointDefinition (row : Nat) : Node :=
  ⟨"function_definition", true, ⟨row, 0⟩, ⟨row + 1, 1⟩, [("body", 1), ("declarator", 0)],
    [⟨"function_declarator", true, ⟨row, 0⟩, ⟨row, 14⟩, [("declarator", 0)],
      [⟨"qualified_identifier", true, ⟨row, 0⟩, ⟨row, 12⟩, [("name", 2)],
        [⟨"namespace_identifier", true, ⟨row, 0⟩, ⟨row, 5⟩, [], []⟩,
         ⟨"::", false, ⟨row, 5⟩, ⟨row, 7⟩, [], []⟩,
         ⟨"identifier", true, ⟨row, 7⟩, ⟨row, 12⟩, [], []⟩]⟩,
       ⟨"parameter_list", true, ⟨row, 12⟩, ⟨row, 14⟩, [],
        [⟨"(", false, ⟨row, 12⟩, ⟨row, 13⟩, [], []⟩,
         ⟨")", false, ⟨row, 13⟩, ⟨row, 14⟩, [], []⟩]⟩]⟩,
     ⟨"compound_statement", true, ⟨row, 15⟩, ⟨row + 1, 1⟩, [],
      [⟨"\x7b", false, ⟨row, 15⟩, ⟨row, 16⟩, [], []⟩,
       ⟨"\x7d", false, ⟨row + 1, 0⟩, ⟨row + 1, 1⟩, [], []⟩]⟩]⟩

def geoDefinition : Node :=
  ⟨"function_definition", true, ⟨3, 0⟩, ⟨4, 1⟩, [("body", 2), ("declarator", 1), ("type", 0)],
    [⟨"primitive_type", true, ⟨3, 0⟩, ⟨3, 4⟩, [], []⟩,
     ⟨"function_declarator", true, ⟨3, 5⟩, ⟨3, 10⟩, [("declarator", 0)],
      [⟨"identifier", true, ⟨3, 5⟩, ⟨3, 8⟩, [], []⟩,
       ⟨"parameter_list", true, ⟨3, 8⟩, ⟨3, 10⟩, [],
        [⟨"(", false, ⟨3, 8⟩, ⟨3, 9⟩, [], []⟩,
         ⟨")", false, ⟨3, 9⟩, ⟨3, 10⟩, [], []⟩]⟩]⟩,
     ⟨"compound_statement", true, ⟨3, 11⟩, ⟨4, 1⟩, [],
      [⟨"\x7b", false, ⟨3, 11⟩, ⟨3, 12⟩, [], []⟩,
       ⟨"\x7d", false, ⟨4, 0⟩, ⟨4, 1⟩, [], []⟩]⟩]⟩

def geoNamespace : Node :=
  ⟨"namespace_definition", true, ⟨0, 0⟩, ⟨5, 1⟩, [("body", 2), ("name", 1)],
    [⟨"namespace", false, ⟨0, 0⟩, ⟨0, 9⟩, [], []⟩,
     ⟨"namespace_identifier", true, ⟨0, 10⟩, ⟨0, 13⟩, [], []⟩,
     ⟨"declaration_list", true, ⟨0, 14⟩, ⟨5, 1⟩, [],
      [⟨"\x7b", false, ⟨0, 14⟩, ⟨0, 15⟩, [], []⟩, pointDefinition 1, geoDefinition,
       ⟨"\x7d", false, ⟨5, 0⟩, ⟨5, 1⟩, [], []⟩]⟩]⟩

def scopedTree : Node :=
  ⟨"translation_unit", true, ⟨0, 0⟩, ⟨8, 0⟩, [], [geoNamespace, pointDefinition 6]⟩

/-- The namespace is the nearest node with a role above its definitions. -/
theorem encloses_geoNamespace (i : Nat) :
    Language.Encloses .cpp scopedTree.children [0] [0, 2, i] := by
  have alone : Language.Outermost .cpp geoNamespace.children [2, i] :=
    (Language.outermost_singleton i).cons rfl rfl rfl
  exact Language.encloses_first alone rfl rfl rfl (List.cons_ne_nil _ _)

/-- Behind the namespace `Point::Point` is a constructor. In the namespace it is a method, and the
function with the name of the namespace is a constructor. -/
theorem cpp_constructors_scoped :
    Language.RepeatsOwner ((ofDocument .cpp scopedText).name (pointDefinition 1)).toList ∧
      ∃ outer inner other : Symbol,
        Symbol.at? ((ofDocument .cpp scopedText).symbols scopedTree) [1] = some outer ∧
        Symbol.at? ((ofDocument .cpp scopedText).symbols scopedTree) [0, 0] = some inner ∧
        Symbol.at? ((ofDocument .cpp scopedText).symbols scopedTree) [0, 1] = some other ∧
        outer.kind = .constructor ∧ inner.kind = .method ∧ other.kind = .constructor := by
  have name : ∀ row ∈ [1, 6],
      (ofDocument .cpp scopedText).name (pointDefinition row) = "Point::Point" := by
    decide +kernel
  have point : Language.RepeatsOwner "Point::Point".toList :=
    ⟨"Point".toList, ⟨by decide, by decide⟩, .inl (by decide)⟩
  have constructors := cpp_constructors (ofDocument .cpp scopedText) rfl scopedTree
  obtain ⟨outer, foundOuter, -, kindOuter⟩ := constructors [1] (pointDefinition 6) rfl rfl
  obtain ⟨inner, foundInner, -, kindInner⟩ := constructors [0, 2, 1] (pointDefinition 1) rfl rfl
  obtain ⟨other, foundOther, -, kindOther⟩ := constructors [0, 2, 2] geoDefinition rfl rfl
  refine ⟨?_, outer, inner, other, foundOuter, foundInner, foundOther, ?_, ?_, ?_⟩
  · rw [name 1 (by decide)]
    exact point
  · refine (kindOuter.outside ?_).1.mpr ?_
    · rintro ⟨above, encloses, -⟩
      exact encloses.not_outermost (Language.outermost_singleton 1)
    · rw [name 6 (by decide)]
      exact point
  · rw [kindInner.inside [0] geoNamespace (encloses_geoNamespace 1) rfl rfl, if_neg]
    decide +kernel
  · rw [kindOther.inside [0] geoNamespace (encloses_geoNamespace 2) rfl rfl, if_pos]
    decide +kernel

end Source

end FunctionMeter
