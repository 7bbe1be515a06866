import FunctionMeter.Proofs.Tree.Span
import Mathlib

/-!
# The descent to a declared name

The name of a C function stands below nested declarators. The way down to it takes one of two steps:
to the child in the role `declarator`, and where there is none, from a declarator to its last named
child. Each step leads to a child, so there are at most as many steps as the tree has levels. The
descent ends at a node that is no declarator and has nothing in the role, or at a bare declarator
from which nothing leads on. In the first case that node is the result, in the second there is none.
-/

namespace FunctionMeter.Node

variable {m n inner : Node} {steps : Nat}

/-! ## Steps -/

/-- The kind of a node ends in `_declarator`. -/
def IsDeclarator (n : Node) : Prop := "_declarator".toList <:+ n.kind.toList

theorem isDeclarator_iff :
    n.IsDeclarator ↔ n.kind.toList.reverse.take 11 = "_declarator".toList.reverse := by
  rw [IsDeclarator, ← List.reverse_prefix, List.prefix_iff_eq_take, eq_comm]
  rfl

/-- One step towards what is declared. -/
inductive Descends : Node → Node → Prop
  | field {n inner : Node} (found : n.field? "declarator" = some inner) : Descends n inner
  | last {n inner : Node} (without : n.field? "declarator" = none) (declarator : n.IsDeclarator)
      (found : n.namedChildren.getLast? = some inner) : Descends n inner

/-- A node is what is declared: no declarator, and none below it in the role. -/
structure IsDeclared (n : Node) : Prop where
  without : n.field? "declarator" = none
  plain : ¬ n.IsDeclarator

/-- A declarator from which no step leads on. -/
structure IsBare (n : Node) : Prop where
  without : n.field? "declarator" = none
  declarator : n.IsDeclarator
  childless : n.namedChildren = []

theorem innermostDeclarator_of_descends (step : Descends n inner) :
    n.innermostDeclarator = inner.innermostDeclarator := by
  rw [innermostDeclarator]
  cases step with
  | field found =>
      split
      · rename_i other found'
        rw [Option.some.inj (found.symm.trans found')]
      · rename_i without
        cases found.symm.trans without
  | last without declarator found =>
      split
      · rename_i other found'
        cases without.symm.trans found'
      · rw [if_pos (isDeclarator_iff.mp declarator)]
        split
        · rename_i other found'
          rw [Option.some.inj (found.symm.trans found')]
        · rename_i childless
          cases found.symm.trans childless

theorem IsDeclared.innermostDeclarator_eq (declared : n.IsDeclared) :
    n.innermostDeclarator = some n := by
  rw [innermostDeclarator]
  split
  · rename_i inner found
    cases declared.without.symm.trans found
  · rw [if_neg (mt isDeclarator_iff.mpr declared.plain)]

theorem IsBare.innermostDeclarator_eq (bare : n.IsBare) : n.innermostDeclarator = none := by
  rw [innermostDeclarator]
  split
  · rename_i inner found
    cases bare.without.symm.trans found
  · rw [if_pos (isDeclarator_iff.mp bare.declarator)]
    split
    · rename_i inner found
      rw [bare.childless] at found
      cases found
    · rfl

/-- Every node is the end of the descent, or a step leads on. -/
theorem descends_or_ends (n : Node) : (∃ inner, Descends n inner) ∨ n.IsDeclared ∨ n.IsBare := by
  cases field : n.field? "declarator" with
  | some inner => exact .inl ⟨inner, .field field⟩
  | none =>
      by_cases declarator : n.IsDeclarator
      · cases last : n.namedChildren.getLast? with
        | some inner => exact .inl ⟨inner, .last field declarator last⟩
        | none => exact .inr (.inr ⟨field, declarator, List.getLast?_eq_none_iff.mp last⟩)
      · exact .inr (.inl ⟨field, declarator⟩)

theorem Descends.mem_children (step : Descends n inner) : inner ∈ n.children := by
  cases step with
  | field found => exact mem_children_of_field? found
  | last without declarator found => exact mem_children_of_last_named found

/-! ## Levels -/

mutual

/-- How many levels of nodes there are below a node. -/
def height : Node → Nat
  | ⟨_, _, _, _, _, children⟩ => heightAll children

/-- How many levels nodes and what is below them take. -/
def heightAll : List Node → Nat
  | [] => 0
  | n :: nodes => max (height n + 1) (heightAll nodes)

end

theorem height_lt_of_mem (member : inner ∈ n.children) : inner.height < n.height := by
  obtain ⟨kind, named, start, stop, fields, children⟩ := n
  rw [height]
  induction children with
  | nil => cases member
  | cons first rest ih =>
      rw [heightAll]
      rcases List.mem_cons.mp member with rfl | later
      · omega
      · have below := ih later
        omega

/-! ## Descents -/

/-- A number of steps leads from a node to another one. -/
inductive Descent : Nat → Node → Node → Prop
  | refl (n : Node) : Descent 0 n n
  | head {steps : Nat} {n inner m : Node} (step : Descends n inner) (rest : Descent steps inner m) :
      Descent (steps + 1) n m

namespace Descent

theorem steps_le_height (descent : Descent steps n m) : steps ≤ n.height := by
  induction descent with
  | refl n => exact Nat.zero_le _
  | head step rest ih =>
      have lower := height_lt_of_mem step.mem_children
      omega

/-- The result is the same from every node on the way. -/
theorem innermostDeclarator_eq (descent : Descent steps n m) :
    n.innermostDeclarator = m.innermostDeclarator := by
  induction descent with
  | refl n => rfl
  | head step rest ih => rw [innermostDeclarator_of_descends step, ih]

end Descent

/-- Every descent can be brought to its end. -/
theorem exists_descent (n : Node) : ∃ steps m, Descent steps n m ∧ (m.IsDeclared ∨ m.IsBare) := by
  induction levels : n.height using Nat.strong_induction_on generalizing n with
  | _ levels ih =>
      rcases descends_or_ends n with ⟨inner, step⟩ | ends
      · have lower := height_lt_of_mem step.mem_children
        obtain ⟨steps, m, rest, ends⟩ := ih inner.height (levels ▸ lower) inner rfl
        exact ⟨steps + 1, m, .head step rest, ends⟩
      · exact ⟨0, n, .refl n, ends⟩

/-- The search for the innermost declarator takes at most as many steps as the tree has levels. It
finds a node exactly if the steps lead to it and it is what is declared: it has nothing in the role
`declarator` and is no declarator itself. That node is the first one or stands below it. Nothing is
found exactly if the steps lead to a declarator with nothing in the role and no named child. -/
theorem innermostDeclarator_ends_descent (n : Node) :
    (∀ steps m, Descent steps n m → steps ≤ n.height) ∧
    (∀ m, n.innermostDeclarator = some m ↔ (∃ steps, Descent steps n m) ∧
      m.field? "declarator" = none ∧ ¬ "_declarator".toList <:+ m.kind.toList) ∧
    (∀ m, n.innermostDeclarator = some m → m.Below n) ∧
    (n.innermostDeclarator = none ↔ ∃ m, (∃ steps, Descent steps n m) ∧
      m.field? "declarator" = none ∧ "_declarator".toList <:+ m.kind.toList ∧
      m.namedChildren = []) := by
  obtain ⟨steps, last, descent, ends⟩ := exists_descent n
  have result := descent.innermostDeclarator_eq
  refine ⟨fun _ _ => Descent.steps_le_height, fun m => ⟨fun found => ?_, ?_⟩, fun m found => ?_,
    fun missing => ?_, ?_⟩
  · rcases ends with declared | bare
    · rw [result, declared.innermostDeclarator_eq] at found
      cases found
      exact ⟨⟨steps, descent⟩, declared.without, declared.plain⟩
    · rw [result, bare.innermostDeclarator_eq] at found
      cases found
  · rintro ⟨⟨steps', descent'⟩, without, plain⟩
    rw [descent'.innermostDeclarator_eq, IsDeclared.innermostDeclarator_eq ⟨without, plain⟩]
  · exact below_of_innermostDeclarator found
  · rcases ends with declared | bare
    · rw [result, declared.innermostDeclarator_eq] at missing
      cases missing
    · exact ⟨last, ⟨steps, descent⟩, bare.without, bare.declarator, bare.childless⟩
  · rintro ⟨m, ⟨steps', descent'⟩, without, declarator, childless⟩
    rw [descent'.innermostDeclarator_eq,
      IsBare.innermostDeclarator_eq ⟨without, declarator, childless⟩]

/-- The declarator of `& f()`, whose inner declarator has no role. -/
def referenceDeclarator : Node :=
  ⟨"reference_declarator", true, ⟨0, 4⟩, ⟨0, 9⟩, [],
    [⟨"&", false, ⟨0, 4⟩, ⟨0, 5⟩, [], []⟩,
     ⟨"function_declarator", true, ⟨0, 6⟩, ⟨0, 9⟩, [("declarator", 0)],
      [⟨"identifier", true, ⟨0, 6⟩, ⟨0, 7⟩, [], []⟩,
       ⟨"parameter_list", true, ⟨0, 7⟩, ⟨0, 9⟩, [], []⟩]⟩]⟩

/-- What an error left of `* [`: an array declarator whose pointer declares nothing. -/
def brokenDeclarator : Node :=
  ⟨"array_declarator", true, ⟨0, 4⟩, ⟨0, 7⟩, [("declarator", 0)],
    [⟨"pointer_declarator", true, ⟨0, 4⟩, ⟨0, 5⟩, [], [⟨"*", false, ⟨0, 4⟩, ⟨0, 5⟩, [], []⟩]⟩,
     ⟨"ERROR", true, ⟨0, 6⟩, ⟨0, 7⟩, [], []⟩]⟩

/-- Both kinds of steps lead to the name `f`. In the broken declarator one step leads to a declarator
that has only an unnamed child, so there is no name. -/
theorem innermostDeclarator_ends_descent_reference :
    referenceDeclarator.innermostDeclarator =
      some ⟨"identifier", true, ⟨0, 6⟩, ⟨0, 7⟩, [], []⟩ ∧
    brokenDeclarator.innermostDeclarator = none := by
  obtain ⟨-, found, -, -⟩ := innermostDeclarator_ends_descent referenceDeclarator
  obtain ⟨-, -, -, missing⟩ := innermostDeclarator_ends_descent brokenDeclarator
  have reference : referenceDeclarator.IsDeclarator := by
    unfold IsDeclarator
    decide
  constructor
  · refine (found _).mpr ⟨⟨2, .head (.last rfl reference rfl) (.head (.field rfl) (.refl _))⟩, rfl, ?_⟩
    decide
  · refine missing.mpr ⟨_, ⟨1, .head (.field rfl) (.refl _)⟩, rfl, ?_, rfl⟩
    decide

end FunctionMeter.Node
