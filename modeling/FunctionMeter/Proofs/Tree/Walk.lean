import FunctionMeter.Proofs.Language
import FunctionMeter.Proofs.Symbol.Address
import FunctionMeter.Proofs.Tree.Address
import FunctionMeter.Tree.Walk
import Mathlib

/-!
# Symbols and the nodes they stand for

The walk over a syntax tree makes one symbol of each node with a role that it reaches, and no other.
`place` tells where: it takes the address of a node in the tree to the address of its symbol in the
forest. On the way down, a node with a role opens a new level of symbols, while the symbols below a
node without a role stand among those around it, behind the ones of earlier siblings.

The main result is that this is a one-to-one correspondence which keeps document order and the
nearest enclosing node with a role.
-/

namespace FunctionMeter

theorem Symbol.at?_append_cons (before after : List Symbol) (s : Symbol) (rest : List Nat) :
    Symbol.at? (before ++ s :: after) (before.length :: rest) = s.descend? rest := by
  rw [Symbol.at?, List.getElem?_append_right le_rfl, Nat.sub_self, List.getElem?_cons_zero,
    Option.bind_some]

theorem Symbol.at?_append_left {before : List Symbol} {k : Nat} (inside : k < before.length)
    (after : List Symbol) (rest : List Nat) :
    Symbol.at? (before ++ after) (k :: rest) = Symbol.at? before (k :: rest) := by
  rw [Symbol.at?, List.getElem?_append_left inside, Symbol.at?]

theorem Symbol.at?_append_right {before : List Symbol} {k : Nat} (beyond : before.length ≤ k)
    (after : List Symbol) (rest : List Nat) :
    Symbol.at? (before ++ after) (k :: rest) =
      Symbol.at? after ((k - before.length) :: rest) := by
  rw [Symbol.at?, List.getElem?_append_right beyond, Symbol.at?]

theorem Symbol.preorderAll_append (xs ys : List Symbol) :
    Symbol.preorderAll (xs ++ ys) = Symbol.preorderAll xs ++ Symbol.preorderAll ys := by
  induction xs with
  | nil => rw [List.nil_append, Symbol.preorderAll, List.nil_append]
  | cons x xs ih =>
      rw [List.cons_append, Symbol.preorderAll, Symbol.preorderAll, ih, List.append_assoc]

/-- Below a symbol, going down is looking into the forest of its children. -/
theorem Symbol.descend?_of_at? {s t : Symbol} {address : List Nat}
    (found : Symbol.at? s.children address = some t) : s.descend? address = some t := by
  cases address with
  | nil => cases found
  | cons i rest => rwa [Symbol.descend?_cons]

namespace Source

variable {source : Source} {nodes : List Node} {node child : Node} {role : Role}
variable {enclosing : Option (Role × String)} {i first : Nat} {address rest : List Nat}

/-! ## Equations of the walk -/

/-- The symbols found below a node with a role. -/
def below (source : Source) (node : Node) (role : Role) : List Symbol :=
  source.ofNodes (some (role, source.name node)) node.children

theorem ofNode_of_unnamed (enclosing : Option (Role × String)) (unnamed : node.named = false) :
    source.ofNode enclosing node = [] := by
  cases node
  rw [ofNode, if_neg (Bool.eq_false_iff.mp unnamed)]

theorem ofNode_of_role (enclosing : Option (Role × String)) (named : node.named = true)
    (has : source.language.role node = some role) :
    source.ofNode enclosing node =
      [source.symbol node role enclosing (source.below node role)] := by
  cases node
  rw [ofNode, if_pos named]
  simp only [has]
  rfl

theorem ofNode_of_none (enclosing : Option (Role × String)) (named : node.named = true)
    (without : source.language.role node = none) :
    source.ofNode enclosing node = source.ofNodes enclosing node.children := by
  cases node
  rw [ofNode, if_pos named]
  simp only [without]

theorem ofNodes_append (enclosing : Option (Role × String)) (xs ys : List Node) :
    source.ofNodes enclosing (xs ++ ys) =
      source.ofNodes enclosing xs ++ source.ofNodes enclosing ys := by
  induction xs with
  | nil => rw [List.nil_append, ofNodes, List.nil_append]
  | cons x xs ih => rw [List.cons_append, ofNodes, ofNodes, ih, List.append_assoc]

/-! ## How many symbols nodes make -/

/-- How many symbols stand side by side for nodes, those below them not counted. -/
def width (source : Source) (nodes : List Node) : Nat := (source.ofNodes none nodes).length

theorem length_ofNodes (enclosing : Option (Role × String)) (nodes : List Node) :
    (source.ofNodes enclosing nodes).length = source.width nodes := by
  rw [width]
  induction nodes using Node.forest_induction generalizing enclosing with
  | nil => rw [ofNodes, ofNodes]
  | cons n nodes children later =>
      rw [ofNodes, ofNodes, List.length_append, List.length_append, later]
      congr 1
      cases named : n.named with
      | false => rw [ofNode_of_unnamed _ named, ofNode_of_unnamed _ named]
      | true =>
          cases has : source.language.role n with
          | none => rw [ofNode_of_none _ named has, ofNode_of_none _ named has, children]
          | some role =>
              rw [ofNode_of_role _ named has, ofNode_of_role _ named has, List.length_singleton,
                List.length_singleton]

theorem width_append (xs ys : List Node) :
    source.width (xs ++ ys) = source.width xs + source.width ys := by
  rw [width, ofNodes_append, List.length_append, width, width]

theorem width_cons (n : Node) (nodes : List Node) :
    source.width (n :: nodes) = source.width [n] + source.width nodes := width_append [n] nodes

theorem length_ofNode (enclosing : Option (Role × String)) (n : Node) :
    (source.ofNode enclosing n).length = source.width [n] := by
  rw [← length_ofNodes enclosing, ofNodes, ofNodes, List.append_nil]

theorem width_of_role (named : node.named = true) (has : source.language.role node = some role) :
    source.width [node] = 1 := by
  rw [width, ofNodes, ofNodes, ofNode_of_role none named has]
  rfl

theorem width_of_none (named : node.named = true) (without : source.language.role node = none) :
    source.width [node] = source.width node.children := by
  rw [width, ofNodes, ofNodes, ofNode_of_none none named without, List.append_nil, width]

theorem width_take_succ (found : nodes[i]? = some child) :
    source.width (nodes.take (i + 1)) = source.width (nodes.take i) + source.width [child] := by
  rw [List.take_add_one, found, width_append, Option.toList_some]

theorem width_take_le (source : Source) (nodes : List Node) {i j : Nat} (less : i ≤ j) :
    source.width (nodes.take i) ≤ source.width (nodes.take j) := by
  obtain ⟨k, rfl⟩ := Nat.exists_eq_add_of_le less
  rw [List.take_add, width_append]
  exact Nat.le_add_right _ _

/-! ## The place of a symbol -/

/-- The address of the symbol for the node at an address, if the first symbol that the nodes make
has index `first`. -/
def place (source : Source) (nodes : List Node) (first : Nat) : List Nat → List Nat
  | [] => []
  | i :: rest =>
    let here := first + source.width (nodes.take i)
    match nodes[i]? with
    | none => []
    | some node =>
      match source.language.role node with
      | some _ => here :: place source node.children 0 rest
      | none => place source node.children here rest

theorem place_of_role (first : Nat) (rest : List Nat) (found : nodes[i]? = some child)
    (has : source.language.role child = some role) :
    source.place nodes first (i :: rest) =
      (first + source.width (nodes.take i)) :: source.place child.children 0 rest := by
  simp only [place, found, has]

theorem place_of_none (first : Nat) (rest : List Nat) (found : nodes[i]? = some child)
    (without : source.language.role child = none) :
    source.place nodes first (i :: rest) =
      source.place child.children (first + source.width (nodes.take i)) rest := by
  simp only [place, found, without]

theorem place_succ (n : Node) (nodes : List Node) (first i : Nat) (rest : List Nat) :
    source.place (n :: nodes) first ((i + 1) :: rest) =
      source.place nodes (first + source.width [n]) (i :: rest) := by
  rw [place, place, List.getElem?_cons_succ, List.take_succ_cons, width_cons, Nat.add_assoc]

/-- What surrounds the node at an address: the nearest node with a role above it, whose symbol is
then the parent of its symbol, or what surrounds all the nodes. -/
inductive Surrounds (source : Source) (nodes : List Node) (first : Nat)
    (enclosing : Option (Role × String)) (address : List Nat) : Option (Role × String) → Prop
  | outermost (k : Nat) (alone : source.language.Outermost nodes address)
      (top : source.place nodes first address = [k]) :
      Surrounds source nodes first enclosing address enclosing
  | within {above : List Nat} {owner : Node} {role : Role} (k : Nat)
      (encloses : source.language.Encloses nodes above address)
      (stands : Node.at? nodes above = some owner)
      (has : source.language.role owner = some role)
      (inside : source.place nodes first address = source.place nodes first above ++ [k]) :
      Surrounds source nodes first enclosing address (some (role, source.name owner))

namespace Surrounds

variable {surrounding : Option (Role × String)}

/-- A node with a role surrounds what is outermost below it. -/
theorem cons_of_role (h : Surrounds source child.children 0 (some (role, source.name child)) rest
      surrounding) (found : nodes[i]? = some child) (named : child.named = true)
    (has : source.language.role child = some role) (nonempty : rest ≠ []) :
    Surrounds source nodes first enclosing (i :: rest) surrounding := by
  cases h with
  | outermost k alone top =>
      refine .within k (Language.encloses_first alone found named (by rw [has]; rfl) nonempty)
        (Node.at?_singleton.mpr ⟨found, named⟩) has ?_
      rw [place_of_role first rest found has, place_of_role first [] found has, top]
      rfl
  | @within above owner ownRole k encloses stands hasOwn inside =>
      have somewhere : above ≠ [] := by
        rintro rfl
        cases stands
      refine .within k (encloses.cons found named) ?_ hasOwn ?_
      · rw [Node.at?_of_child found named somewhere, stands]
      · rw [place_of_role first rest found has, place_of_role first above found has, inside,
          List.cons_append]

/-- Through a node without a role the surroundings stay the same. -/
theorem cons_of_none (h : Surrounds source child.children (first + source.width (nodes.take i))
      enclosing rest surrounding) (found : nodes[i]? = some child) (named : child.named = true)
    (without : source.language.role child = none) :
    Surrounds source nodes first enclosing (i :: rest) surrounding := by
  cases h with
  | outermost k alone top =>
      refine .outermost k (alone.cons found named without) ?_
      rw [place_of_none first rest found without, top]
  | @within above owner ownRole k encloses stands hasOwn inside =>
      have somewhere : above ≠ [] := by
        rintro rfl
        cases stands
      refine .within k (encloses.cons found named) ?_ hasOwn ?_
      · rw [Node.at?_of_child found named somewhere, stands]
      · rw [place_of_none first rest found without, place_of_none first above found without, inside]

end Surrounds

/-- Nodes are walked in three parts: those before a node, the node, and those behind it. -/
theorem ofNodes_around (before after : List Symbol) (enclosing : Option (Role × String))
    (found : nodes[i]? = some child) :
    before ++ (source.ofNodes enclosing nodes ++ after) =
      (before ++ source.ofNodes enclosing (nodes.take i)) ++ (source.ofNode enclosing child ++
        (source.ofNodes enclosing (nodes.drop (i + 1)) ++ after)) := by
  obtain ⟨bound, rfl⟩ := List.getElem?_eq_some_iff.mp found
  conv_lhs => rw [← List.take_append_drop i nodes, List.drop_eq_getElem_cons bound]
  simp only [ofNodes_append, ofNodes, List.append_assoc]

/-- The symbol of a node with a role is at its place, also if other symbols stand around those of
the walk. -/
theorem at?_place (before after : List Symbol) (enclosing : Option (Role × String))
    (found : Node.at? nodes address = some node) (has : source.language.role node = some role) :
    ∃ surrounding, Surrounds source nodes before.length enclosing address surrounding ∧
      Symbol.at? (before ++ (source.ofNodes enclosing nodes ++ after))
        (source.place nodes before.length address) =
          some (source.symbol node role surrounding (source.below node role)) := by
  induction address generalizing nodes before after enclosing with
  | nil => cases found
  | cons i rest ih =>
      obtain ⟨child, present, named, stop⟩ := Node.at?_cons_eq_some.mp found
      have size : before.length + source.width (nodes.take i) =
          (before ++ source.ofNodes enclosing (nodes.take i)).length := by
        rw [List.length_append, length_ofNodes]
      rcases stop with ⟨rfl, rfl⟩ | deeper
      · refine ⟨enclosing, .outermost _ (Language.outermost_singleton i)
          (place_of_role before.length [] present has), ?_⟩
        rw [place_of_role _ _ present has, size, ofNodes_around _ _ _ present,
          ofNode_of_role enclosing named has]
        exact Symbol.at?_append_cons _ _ _ _
      · have nonempty : rest ≠ [] := by
          rintro rfl
          cases deeper
        cases own : source.language.role child with
        | none =>
            -- The symbols below the child stand among those of its siblings.
            obtain ⟨surrounding, surrounds, stands⟩ := ih
              (before ++ source.ofNodes enclosing (nodes.take i))
              (source.ofNodes enclosing (nodes.drop (i + 1)) ++ after) enclosing deeper
            rw [← size] at surrounds stands
            refine ⟨surrounding, surrounds.cons_of_none present named own, ?_⟩
            rw [place_of_none _ _ present own, ofNodes_around _ _ _ present,
              ofNode_of_none enclosing named own, stands]
        | some childRole =>
            -- The symbols below the child are the children of its symbol.
            obtain ⟨surrounding, surrounds, stands⟩ :=
              ih [] [] (some (childRole, source.name child)) deeper
            refine ⟨surrounding, surrounds.cons_of_role present named own nonempty, ?_⟩
            rw [List.nil_append, List.append_nil] at stands
            rw [place_of_role _ _ present own, size, ofNodes_around _ _ _ present,
              ofNode_of_role enclosing named own]
            refine (Symbol.at?_append_cons _ _ _ _).trans ?_
            exact Symbol.descend?_of_at? stands

/-! ## Document order -/

theorem width_take_le_width (source : Source) (nodes : List Node) (i : Nat) :
    source.width (nodes.take i) ≤ source.width nodes := by
  conv_rhs => rw [← List.take_append_drop i nodes, width_append]
  exact Nat.le_add_right _ _

/-- The place of a node begins among the symbols of the first node on the way to it. -/
theorem place_head (bears : source.language.Bears nodes (i :: rest)) (first : Nat) :
    ∃ k deeper, source.place nodes first (i :: rest) = k :: deeper ∧
      first + source.width (nodes.take i) ≤ k ∧
      k < first + source.width (nodes.take (i + 1)) := by
  induction rest generalizing nodes first i with
  | nil =>
      obtain ⟨child, present, named, ⟨-, has⟩ | nowhere⟩ := bears.first
      · obtain ⟨role, own⟩ := Option.isSome_iff_exists.mp has
        refine ⟨_, _, place_of_role first [] present own, le_rfl, ?_⟩
        rw [width_take_succ present, width_of_role named own]
        omega
      · exact absurd nowhere Language.not_bears_nil
  | cons j rest ih =>
      obtain ⟨child, present, named, ⟨absurd, -⟩ | deeper⟩ := bears.first
      · cases absurd
      · cases own : source.language.role child with
        | some role =>
            refine ⟨_, _, place_of_role first _ present own, le_rfl, ?_⟩
            rw [width_take_succ present, width_of_role named own]
            omega
        | none =>
            obtain ⟨k, inner, same, low, high⟩ :=
              ih deeper (first + source.width (nodes.take i))
            have inside := width_take_le_width source child.children (j + 1)
            refine ⟨k, inner, (place_of_none first _ present own).trans same, by omega, ?_⟩
            rw [width_take_succ present, width_of_none named own]
            omega

/-- Places are in the order of the nodes that they belong to. -/
theorem place_lt {other : List Nat} (bears : source.language.Bears nodes address)
    (bearsOther : source.language.Bears nodes other) (less : address < other) (first : Nat) :
    source.place nodes first address < source.place nodes first other := by
  induction address generalizing nodes other first with
  | nil => exact absurd bears Language.not_bears_nil
  | cons i rest ih =>
      cases other with
      | nil => exact absurd bearsOther Language.not_bears_nil
      | cons j later =>
          rcases List.cons_lt_cons_iff.mp less with apart | ⟨rfl, below⟩
          · obtain ⟨k, inner, same, -, high⟩ := place_head bears first
            obtain ⟨l, inner', same', low, -⟩ := place_head bearsOther first
            have between := width_take_le source nodes (Nat.add_one_le_of_lt apart)
            rw [same, same', List.cons_lt_cons_iff]
            exact .inl (by omega)
          · obtain ⟨child, present, named, stop⟩ := bears.first
            have nonempty : later ≠ [] := by
              rintro rfl
              exact List.not_lt_nil _ below
            have bearsLater : source.language.Bears child.children later :=
              (Language.bears_of_child present named nonempty).mp bearsOther
            cases own : source.language.role child with
            | some role =>
                rw [place_of_role first rest present own, place_of_role first later present own,
                  List.cons_lt_cons_self]
                rcases stop with ⟨rfl, -⟩ | bearsRest
                · obtain ⟨j, later, rfl⟩ := List.exists_cons_of_ne_nil nonempty
                  obtain ⟨k, inner, same, -, -⟩ := place_head bearsLater 0
                  rw [place, same]
                  exact List.nil_lt_cons k inner
                · exact ih bearsRest bearsLater below 0
            | none =>
                rw [place_of_none first rest present own, place_of_none first later present own]
                rcases stop with ⟨-, has⟩ | bearsRest
                · rw [own] at has
                  cases has
                · exact ih bearsRest bearsLater below _

theorem place_lt_iff {other : List Nat} (bears : source.language.Bears nodes address)
    (bearsOther : source.language.Bears nodes other) (first : Nat) :
    source.place nodes first address < source.place nodes first other ↔ address < other := by
  refine ⟨fun less => ?_, fun less => place_lt bears bearsOther less first⟩
  rcases lt_trichotomy address other with before | rfl | behind
  · exact before
  · exact absurd less (lt_irrefl _)
  · exact absurd less (place_lt bearsOther bears behind first).asymm

/-- Different nodes have different places. -/
theorem place_injective {other : List Nat} (bears : source.language.Bears nodes address)
    (bearsOther : source.language.Bears nodes other)
    (same : source.place nodes first address = source.place nodes first other) :
    address = other := by
  rcases lt_trichotomy address other with before | equal | behind
  · exact absurd same (place_lt bears bearsOther before first).ne
  · exact equal
  · exact absurd same (place_lt bearsOther bears behind first).ne'

/-- No symbol of the walk is without a node. -/
theorem exists_place {k : Nat} {deeper : List Nat} {s : Symbol} (first : Nat)
    (found : Symbol.at? (source.ofNodes enclosing nodes) (k :: deeper) = some s) :
    ∃ address, source.language.Bears nodes address ∧
      source.place nodes first address = (first + k) :: deeper := by
  induction nodes using Node.forest_induction generalizing first enclosing k deeper s with
  | nil =>
      rw [ofNodes, Symbol.at?_nil] at found
      cases found
  | cons n nodes children later =>
      rw [ofNodes] at found
      by_cases inside : k < (source.ofNode enclosing n).length
      · rw [Symbol.at?_append_left inside] at found
        cases named : n.named with
        | false =>
            rw [ofNode_of_unnamed enclosing named] at inside
            cases inside
        | true =>
            have here : (n :: nodes)[0]? = some n := rfl
            cases own : source.language.role n with
            | none =>
                rw [ofNode_of_none enclosing named own] at found
                obtain ⟨address, bears, same⟩ := children first found
                have nonempty : address ≠ [] := by
                  rintro rfl
                  exact Language.not_bears_nil bears
                refine ⟨0 :: address, (Language.bears_of_child here named nonempty).mpr bears, ?_⟩
                rw [place_of_none first address here own]
                exact same
            | some role =>
                rw [ofNode_of_role enclosing named own] at found inside
                obtain rfl : k = 0 := Nat.lt_one_iff.mp inside
                rw [Symbol.at?_zero] at found
                cases deeper with
                | nil =>
                    refine ⟨[0], (Language.bears_singleton here named).mpr (by rw [own]; rfl), ?_⟩
                    exact place_of_role first [] here own
                | cons l deeper =>
                    rw [Symbol.descend?_cons] at found
                    obtain ⟨address, bears, same⟩ := children 0 found
                    have nonempty : address ≠ [] := by
                      rintro rfl
                      exact Language.not_bears_nil bears
                    refine ⟨0 :: address,
                      (Language.bears_of_child here named nonempty).mpr bears, ?_⟩
                    rw [place_of_role first address here own, same, Nat.zero_add]
                    rfl
      · rw [not_lt] at inside
        rw [Symbol.at?_append_right inside, length_ofNode] at found
        rw [length_ofNode] at inside
        obtain ⟨address, bears, same⟩ := later (first + source.width [n]) found
        cases address with
        | nil => exact absurd bears Language.not_bears_nil
        | cons i rest =>
            refine ⟨(i + 1) :: rest, bears, ?_⟩
            rw [place_succ, same, Nat.add_assoc, Nat.add_sub_cancel' inside]

/-! ## The correspondence -/

/-- A symbol is what the walk makes of a node with a role. -/
def StandsFor (source : Source) (s : Symbol) (node : Node) : Prop :=
  ∃ role surrounding, source.language.role node = some role ∧
    s = source.symbol node role surrounding (source.below node role)

theorem preorderAll_ofNodes (enclosing : Option (Role × String)) (nodes : List Node) :
    List.Forall₂ source.StandsFor (Symbol.preorderAll (source.ofNodes enclosing nodes))
      ((Node.preorderAll nodes).filter fun n => (source.language.role n).isSome) := by
  induction nodes using Node.forest_induction generalizing enclosing with
  | nil =>
      rw [ofNodes, Symbol.preorderAll, Node.preorderAll]
      exact .nil
  | cons n nodes children later =>
      rw [ofNodes, Symbol.preorderAll_append, Node.preorderAll, List.filter_append]
      refine List.rel_append ?_ (later enclosing)
      cases named : n.named with
      | false =>
          rw [ofNode_of_unnamed enclosing named, Node.preorder_of_unnamed named]
          exact .nil
      | true =>
          rw [Node.preorder_of_named named]
          cases own : source.language.role n with
          | none =>
              rw [ofNode_of_none enclosing named own, List.filter_cons_of_neg (by simp [own])]
              exact children enclosing
          | some role =>
              rw [ofNode_of_role enclosing named own, List.filter_cons_of_pos (by simp [own]),
                Symbol.preorderAll_cons, Symbol.preorderAll, List.append_nil]
              exact .cons ⟨role, enclosing, own, rfl⟩ (children _)

theorem isFunctionLike_kind (surrounding : Option (Role × String))
    (has : source.language.role node = some role) :
    (source.kind node surrounding role).isFunctionLike = true ↔ role.isContainer = false := by
  cases role with
  | container => exact ⟨nofun, nofun⟩
  | callable base =>
      have like := Language.isFunctionLike_of_role has
      exact ⟨fun _ => rfl, fun _ => Language.isFunctionLike_refineKind _ surrounding like⟩

theorem kind_eq_method {base : SymbolKind} (surrounding : Option (Role × String))
    (rust : source.language = .rust) (has : source.language.role node = some (.callable base)) :
    source.kind node surrounding (.callable base) = .method ↔
      ∃ owner, surrounding = some (.container, owner) := by
  rw [rust] at has
  rw [kind, rust, Language.base_of_role_rust has, Language.refineKind_rust_eq_method]

namespace Surrounds

variable {surrounding : Option (Role × String)}

theorem container_iff (h : Surrounds source nodes first none address surrounding) :
    (∃ owner, surrounding = some (.container, owner)) ↔
      ∃ above, source.language.Encloses nodes above address ∧
        source.language.roleAt? nodes above = some .container := by
  cases h with
  | outermost k alone top =>
      refine ⟨nofun, ?_⟩
      rintro ⟨above, encloses, -⟩
      exact absurd alone encloses.not_outermost
  | @within above owner role k encloses stands has inside =>
      have own : source.language.roleAt? nodes above = some role := by
        rw [Language.roleAt?, stands, Option.bind_some, has]
      constructor
      · rintro ⟨name, same⟩
        obtain ⟨rfl, -⟩ := Prod.mk.inj (Option.some.inj same)
        exact ⟨above, encloses, own⟩
      · rintro ⟨other, nearest, container⟩
        rw [encloses.unique nearest, own] at container
        exact ⟨_, by rw [Option.some.inj container]⟩

theorem dropLast_of_encloses {above : List Nat}
    (h : Surrounds source nodes first enclosing address surrounding)
    (encloses : source.language.Encloses nodes above address) :
    (source.place nodes first address).dropLast = source.place nodes first above := by
  cases h with
  | outermost k alone top => exact absurd alone encloses.not_outermost
  | within k nearest stands has inside => rw [nearest.unique encloses, inside, List.dropLast_concat]

theorem dropLast_of_outermost (h : Surrounds source nodes first enclosing address surrounding)
    (alone : source.language.Outermost nodes address) :
    (source.place nodes first address).dropLast = [] := by
  cases h with
  | outermost k alone top => rw [top, List.dropLast_singleton]
  | within k nearest stands has inside => exact absurd alone nearest.not_outermost

end Surrounds

/-- What the symbol of the node at an address below a root tells: it is made of this node, and it is
function-like exactly if the node is callable. Where the grammar has no methods of its own, a
callable is a method exactly if the nearest node with a role above it is a container. -/
structure SymbolOf (source : Source) (root : Node) (address : List Nat) (node : Node)
    (role : Role) (s : Symbol) : Prop where
  stands : source.StandsFor s node
  functionLike : s.isFunctionLike = true ↔ role.isContainer = false
  method : source.language = .rust → role.isContainer = false →
    (s.kind = .method ↔ ∃ above, source.language.Encloses root.children above address ∧
      source.language.roleAt? root.children above = some .container)

/-- A forest has one symbol for each node with a role below a root, at the place that `place` gives
for it. The parent of a symbol is at its address without the last index. -/
structure Outlines (source : Source) (root : Node) (forest : List Symbol)
    (place : List Nat → List Nat) : Prop where
  symbol : ∀ address node role, Node.at? root.children address = some node →
    source.language.role node = some role →
      ∃ s, Symbol.at? forest (place address) = some s ∧ SymbolOf source root address node role s
  node : ∀ b s, Symbol.at? forest b = some s →
    ∃! address, source.language.Bears root.children address ∧ place address = b
  order : ∀ a b, source.language.Bears root.children a → source.language.Bears root.children b →
    (place a < place b ↔ a < b)
  preorder : List.Forall₂ source.StandsFor (Symbol.preorderAll forest)
    ((Node.preorderAll root.children).filter fun n => (source.language.role n).isSome)
  parent : ∀ address above, source.language.Bears root.children address →
    source.language.Encloses root.children above address →
      (place address).dropLast = place above
  top : ∀ address, source.language.Bears root.children address →
    source.language.Outermost root.children address → (place address).dropLast = []

/-- The symbol of a node with a role below a root is at its place. -/
theorem at?_symbols {root : Node} (found : Node.at? root.children address = some node)
    (has : source.language.role node = some role) :
    ∃ surrounding, Surrounds source root.children 0 none address surrounding ∧
      Symbol.at? (source.symbols root) (source.place root.children 0 address) =
        some (source.symbol node role surrounding (source.below node role)) := by
  obtain ⟨surrounding, surrounds, stands⟩ := at?_place [] [] none found has
  rw [List.nil_append, List.append_nil] at stands
  exact ⟨surrounding, surrounds, stands⟩

/-- The walk over a tree gives exactly one symbol for each node with a role below the root that is
reached through named nodes. The symbols are in document order, and the parent of a symbol is the
symbol of the nearest node with a role above its node. -/
theorem symbols_outline (source : Source) (root : Node) :
    ∃ place, Outlines source root (source.symbols root) place := by
  refine ⟨source.place root.children 0, ?_, ?_, fun a b bears bears' => place_lt_iff bears bears' 0,
    preorderAll_ofNodes none root.children, ?_, ?_⟩
  · intro address node role found has
    obtain ⟨surrounding, surrounds, stands⟩ := at?_symbols found has
    refine ⟨_, stands, ⟨role, surrounding, has, rfl⟩, isFunctionLike_kind surrounding has, ?_⟩
    intro rust callable
    cases role with
    | container => cases callable
    | callable base => exact (kind_eq_method surrounding rust has).trans surrounds.container_iff
  · intro b s found
    cases b with
    | nil => cases found
    | cons k deeper =>
        obtain ⟨address, bears, same⟩ := exists_place 0 found
        rw [Nat.zero_add] at same
        refine ⟨address, ⟨bears, same⟩, ?_⟩
        rintro other ⟨bearsOther, sameOther⟩
        exact place_injective bearsOther bears (sameOther.trans same.symm)
  · intro address above bears encloses
    obtain ⟨node, role, found, has⟩ := Language.bears_iff.mp bears
    obtain ⟨surrounding, surrounds, -⟩ := at?_symbols found has
    exact surrounds.dropLast_of_encloses encloses
  · intro address bears alone
    obtain ⟨node, role, found, has⟩ := Language.bears_iff.mp bears
    obtain ⟨surrounding, surrounds, -⟩ := at?_symbols found has
    exact surrounds.dropLast_of_outermost alone

end Source

end FunctionMeter
