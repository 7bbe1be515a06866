import FunctionMeter.Language.Role
import Mathlib

/-!
# Addresses in a syntax tree

Every node below the root of a tree has an address: the index of a child on each level down to it.
Only named nodes are gone through, and nothing stands at the empty address, so that the root has
none. As for symbols, the order of lists is document order: a node comes before everything below it,
and everything below it comes before its next sibling.

A node is below another one exactly if its address begins with the address of the other, so the
nearest node with a role above a node is at the longest beginning that leads to a role.
-/

namespace FunctionMeter

namespace Node

/-- The node reached from a node by going to the child with the given index on each level, through
named children only. -/
def descend? (n : Node) : List Nat → Option Node
  | [] => some n
  | i :: rest => (n.children[i]?.filter (·.named)).bind (·.descend? rest)

/-- The node at an address among nodes. -/
def at? (nodes : List Node) : List Nat → Option Node
  | [] => none
  | i :: rest => (nodes[i]?.filter (·.named)).bind (·.descend? rest)

mutual

/-- A node and everything below it that is reached through named nodes, each node before its
children; nothing if the node itself is not named. -/
def preorder : Node → List Node
  | ⟨kind, named, start, stop, fields, children⟩ =>
    if named then ⟨kind, named, start, stop, fields, children⟩ :: preorderAll children else []

/-- The nodes that are reached through named nodes, in document order. -/
def preorderAll : List Node → List Node
  | [] => []
  | n :: nodes => preorder n ++ preorderAll nodes

end

/-- Induction over nodes: a first node is reduced to its children, and the nodes behind it to
themselves. -/
@[elab_as_elim]
theorem forest_induction {motive : List Node → Prop} (nil : motive [])
    (cons : ∀ n nodes, motive n.children → motive nodes → motive (n :: nodes)) :
    ∀ nodes, motive nodes
  | [] => nil
  | ⟨kind, named, start, stop, fields, children⟩ :: nodes =>
    cons ⟨kind, named, start, stop, fields, children⟩ nodes (forest_induction nil cons children)
      (forest_induction nil cons nodes)

theorem preorder_of_named {n : Node} (named : n.named = true) :
    n.preorder = n :: preorderAll n.children := by
  cases n
  rw [preorder, if_pos named]

theorem preorder_of_unnamed {n : Node} (unnamed : n.named = false) : n.preorder = [] := by
  cases n
  rw [preorder, if_neg (Bool.eq_false_iff.mp unnamed)]

/-- An address leads to a child that is named. It ends there or leads on below the child. -/
theorem at?_cons_eq_some {nodes : List Node} {i : Nat} {rest : List Nat} {node : Node} :
    at? nodes (i :: rest) = some node ↔
      ∃ child, nodes[i]? = some child ∧ child.named = true ∧
        (rest = [] ∧ child = node ∨ at? child.children rest = some node) := by
  have named : ∀ child : Node, nodes[i]?.filter (·.named) = some child ↔
      nodes[i]? = some child ∧ child.named = true := fun child => Option.filter_eq_some_iff
  have below : ∀ child : Node, child.descend? rest = some node ↔
      (rest = [] ∧ child = node ∨ at? child.children rest = some node) := by
    intro child
    cases rest with
    | nil => simp [descend?, at?]
    | cons j rest => simp [descend?, at?]
  simp only [at?, Option.bind_eq_some_iff, named, below, and_assoc]

theorem at?_singleton {nodes : List Node} {i : Nat} {node : Node} :
    at? nodes [i] = some node ↔ nodes[i]? = some node ∧ node.named = true := by
  rw [at?_cons_eq_some]
  constructor
  · rintro ⟨child, found, named, ⟨-, rfl⟩ | nowhere⟩
    · exact ⟨found, named⟩
    · cases nowhere
  · rintro ⟨found, named⟩
    exact ⟨node, found, named, .inl ⟨rfl, rfl⟩⟩

theorem at?_of_child {nodes : List Node} {i : Nat} {child : Node} (found : nodes[i]? = some child)
    (named : child.named = true) {rest : List Nat} (nonempty : rest ≠ []) :
    at? nodes (i :: rest) = at? child.children rest := by
  obtain ⟨j, rest, rfl⟩ := List.exists_cons_of_ne_nil nonempty
  have kept : nodes[i]?.filter (·.named) = some child :=
    Option.filter_eq_some_iff.mpr ⟨found, named⟩
  rw [at?, kept, Option.bind_some, descend?, at?]

end Node

namespace Language

variable {language : Language} {nodes : List Node} {child : Node} {i : Nat}
variable {above address rest : List Nat}

/-- The role of the node at an address among nodes. -/
def roleAt? (language : Language) (nodes : List Node) (address : List Nat) : Option Role :=
  (Node.at? nodes address).bind language.role

/-- A node with a role stands at an address. -/
def Bears (language : Language) (nodes : List Node) (address : List Nat) : Prop :=
  (language.roleAt? nodes address).isSome = true

/-- The nearest node with a role above an address stands at another one. -/
structure Encloses (language : Language) (nodes : List Node) (above address : List Nat) :
    Prop where
  begins : above <+: address
  proper : above ≠ address
  bears : language.Bears nodes above
  nearest : ∀ other, other <+: address → other ≠ address → language.Bears nodes other →
    other <+: above

/-- No node with a role is above an address. -/
def Outermost (language : Language) (nodes : List Node) (address : List Nat) : Prop :=
  ∀ other, other <+: address → other ≠ address → ¬ language.Bears nodes other

theorem bears_iff : language.Bears nodes address ↔
    ∃ node role, Node.at? nodes address = some node ∧ language.role node = some role := by
  rw [Bears, roleAt?, Option.isSome_iff_exists]
  simp only [Option.bind_eq_some_iff]
  exact ⟨fun ⟨role, node, found⟩ => ⟨node, role, found⟩,
    fun ⟨node, role, found⟩ => ⟨role, node, found⟩⟩

theorem not_bears_nil : ¬ language.Bears nodes [] := Bool.false_ne_true

/-- The first step of an address that bears a role: it leads to a named child, which has a role
itself or has the rest of the address below it. -/
theorem Bears.first (h : language.Bears nodes (i :: rest)) :
    ∃ child, nodes[i]? = some child ∧ child.named = true ∧
      (rest = [] ∧ (language.role child).isSome = true ∨ language.Bears child.children rest) := by
  obtain ⟨node, role, found, has⟩ := bears_iff.mp h
  obtain ⟨child, present, named, ⟨rfl, rfl⟩ | below⟩ := Node.at?_cons_eq_some.mp found
  · exact ⟨child, present, named, .inl ⟨rfl, by rw [has, Option.isSome_some]⟩⟩
  · exact ⟨child, present, named, .inr (bears_iff.mpr ⟨node, role, below, has⟩)⟩

theorem bears_of_child (found : nodes[i]? = some child) (named : child.named = true)
    (nonempty : rest ≠ []) :
    language.Bears nodes (i :: rest) ↔ language.Bears child.children rest := by
  rw [Bears, roleAt?, Node.at?_of_child found named nonempty, Bears, roleAt?]

theorem bears_singleton (found : nodes[i]? = some child) (named : child.named = true) :
    language.Bears nodes [i] ↔ (language.role child).isSome = true := by
  rw [Bears, roleAt?, Node.at?_singleton.mpr ⟨found, named⟩, Option.bind_some]

theorem Encloses.not_outermost (h : language.Encloses nodes above address) :
    ¬ language.Outermost nodes address :=
  fun none => none above h.begins h.proper h.bears

theorem Encloses.unique {other : List Nat} (h : language.Encloses nodes above address)
    (h' : language.Encloses nodes other address) : other = above :=
  (h.nearest other h'.begins h'.proper h'.bears).eq_of_length_le
    (h'.nearest above h.begins h.proper h.bears).length_le

theorem outermost_singleton (i : Nat) : language.Outermost nodes [i] := by
  intro other before proper bears
  rcases List.prefix_cons_iff.mp before with rfl | ⟨rest, rfl, empty⟩
  · exact not_bears_nil bears
  · rw [List.prefix_nil.mp empty] at proper
    exact proper rfl

/-- The places above an address, if it leads on below its first node, are this node and the places
above the rest of the address. -/
theorem above_cons_cases {other : List Nat} (found : nodes[i]? = some child)
    (named : child.named = true) (before : other <+: i :: rest) (proper : other ≠ i :: rest)
    (bears : language.Bears nodes other) :
    other = [i] ∧ (language.role child).isSome = true ∨
      ∃ below, other = i :: below ∧ below <+: rest ∧ below ≠ rest ∧
        language.Bears child.children below := by
  rcases List.prefix_cons_iff.mp before with rfl | ⟨below, rfl, within⟩
  · exact absurd bears not_bears_nil
  · by_cases empty : below = []
    · subst empty
      exact .inl ⟨rfl, (bears_singleton found named).mp bears⟩
    · exact .inr ⟨below, rfl, within, fun same => proper (congrArg _ same),
        (bears_of_child found named empty).mp bears⟩

theorem Encloses.cons (h : language.Encloses child.children above rest)
    (found : nodes[i]? = some child) (named : child.named = true) :
    language.Encloses nodes (i :: above) (i :: rest) := by
  have nonempty : above ≠ [] := fun empty => not_bears_nil (empty ▸ h.bears)
  refine ⟨List.cons_prefix_cons.mpr ⟨rfl, h.begins⟩, ?_, ?_, ?_⟩
  · exact fun same => h.proper (List.tail_eq_of_cons_eq same)
  · exact (bears_of_child found named nonempty).mpr h.bears
  · intro other before proper bears
    rcases above_cons_cases found named before proper bears with ⟨rfl, -⟩ | ⟨below, rfl, hb⟩
    · exact List.cons_prefix_cons.mpr ⟨rfl, List.nil_prefix⟩
    · exact List.cons_prefix_cons.mpr ⟨rfl, h.nearest below hb.1 hb.2.1 hb.2.2⟩

/-- The first node encloses what is outermost below it, if it has a role. -/
theorem encloses_first (outermost : language.Outermost child.children rest)
    (found : nodes[i]? = some child) (named : child.named = true)
    (has : (language.role child).isSome = true) (nonempty : rest ≠ []) :
    language.Encloses nodes [i] (i :: rest) := by
  refine ⟨List.cons_prefix_cons.mpr ⟨rfl, List.nil_prefix⟩, ?_, ?_, ?_⟩
  · exact fun same => nonempty (List.tail_eq_of_cons_eq same).symm
  · exact (bears_singleton found named).mpr has
  · intro other before proper bears
    rcases above_cons_cases found named before proper bears with ⟨rfl, -⟩ | ⟨below, rfl, hb⟩
    · exact List.prefix_rfl
    · exact absurd hb.2.2 (outermost below hb.1 hb.2.1)

theorem Outermost.cons (h : language.Outermost child.children rest)
    (found : nodes[i]? = some child) (named : child.named = true)
    (without : language.role child = none) : language.Outermost nodes (i :: rest) := by
  intro other before proper bears
  rcases above_cons_cases found named before proper bears with ⟨-, has⟩ | ⟨below, -, hb⟩
  · rw [without] at has
    cases has
  · exact h below hb.1 hb.2.1 hb.2.2

end Language

end FunctionMeter
