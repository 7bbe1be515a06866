import FunctionMeter.Watch
import Mathlib

/-!
# Changes by occurrence

The changes between two measurements are found by taking old functions off stacks, one for each new
function. This module says what comes out without the stacks: each new function is matched with the
old one of the same name and the same rank among the functions of this name. Whatever has no partner
was added or removed.

Stacks hold the functions of a list, and to take the top off one of them is to take the first
function of its name out of the list. The proofs look at one name at a time. To take out the first
function of a name moves the functions of this name up by one rank and leaves every other name as it
was; a whole walk through a list is therefore a walk through the ranks of each name.
-/

namespace FunctionMeter.Watch

/-! ## Occurrences of a name -/

/-- The functions with a name, in order. -/
def named (name : String) (functions : List FunctionReport) : List FunctionReport :=
  functions.filter (·.name = name)

/-- The functions of a list, each with its rank: the number of functions before it that have its
name. -/
def ranked (functions : List FunctionReport) : List (FunctionReport × Nat) :=
  functions.mapIdx fun i f => (f, (named f.name (functions.take i)).length)

/-- What is reported of a new function and the old one that it is matched with, if there is one. -/
def between? (f : FunctionReport) : Option FunctionReport → Option SizeChange
  | some old =>
    if old.loc = f.loc then none
    else some (.resized f.name old.loc f.loc old.category f.category)
  | none => some (.added f.name f.loc f.category)

/-- The changes for the new functions in order, each matched by its name and rank. -/
def matched (before after : List FunctionReport) : List SizeChange :=
  (ranked after).filterMap fun x => between? x.1 (named x.1.name before)[x.2]?

/-- The names that are too many among the old functions: a name that occurs more often there stands
here that many times more, in the place of its first occurrences. -/
def surplus (before after : List FunctionReport) : List String :=
  (ranked before).filterMap fun x =>
    if x.2 < (named x.1.name before).length - (named x.1.name after).length then some x.1.name
    else none

namespace SizeChange

def isAdded : SizeChange → Bool
  | added .. => true
  | _ => false

def isRemoved : SizeChange → Bool
  | removed .. => true
  | _ => false

end SizeChange

variable {name other : String} {f : FunctionReport} {functions : List FunctionReport}

theorem named_cons (name : String) (f : FunctionReport) (functions : List FunctionReport) :
    named name (f :: functions) =
      if f.name = name then f :: named name functions else named name functions := by
  simp only [named, List.filter_cons, decide_eq_true_eq]

theorem name_of_mem_named (member : f ∈ named name functions) : f.name = name := by
  simpa using List.of_mem_filter member

/-- One function more in front raises the rank of those with its name. -/
def rankBehind (f : FunctionReport) (x : FunctionReport × Nat) : FunctionReport × Nat :=
  (x.1, if f.name = x.1.name then x.2 + 1 else x.2)

theorem ranked_cons (f : FunctionReport) (functions : List FunctionReport) :
    ranked (f :: functions) = (f, 0) :: (ranked functions).map (rankBehind f) := by
  apply List.ext_getElem?
  intro i
  cases i with
  | zero => simp [ranked, named]
  | succ i =>
      simp only [ranked, List.getElem?_cons_succ, List.getElem?_map, List.getElem?_mapIdx,
        List.take_succ_cons, Option.map_map]
      congr 1
      funext g
      rw [Function.comp_apply, rankBehind, named_cons]
      split <;> rfl

/-- The functions of one name have the ranks 0, 1, 2 and so on. -/
theorem filter_ranked (name : String) (functions : List FunctionReport) :
    (ranked functions).filter (·.1.name = name) = (named name functions).zipIdx := by
  induction functions with
  | nil => rfl
  | cons f functions ih =>
      have later : ((ranked functions).map (rankBehind f)).filter (·.1.name = name) =
          (named name functions).zipIdx.map fun x =>
            (x.1, if f.name = name then x.2 + 1 else x.2) := by
        rw [List.filter_map, ← ih]
        refine List.map_congr_left fun x member => ?_
        have own : x.1.name = name := of_decide_eq_true (List.mem_filter.mp member).2
        rw [rankBehind, own]
      rw [ranked_cons, List.filter_cons, later, named_cons]
      split <;> rename_i same
      · rw [if_pos (by simpa using same), List.zipIdx_cons, List.zipIdx_succ]
        simp [show f.name = name by simpa using same]
      · rw [if_neg (by simpa using same)]
        simp [show f.name ≠ name by simpa using same]

theorem mem_ranked {rank : Nat} :
    (f, rank) ∈ ranked functions ↔ (named f.name functions)[rank]? = some f := by
  rw [← List.mk_mem_zipIdx_iff_getElem?, ← filter_ranked, List.mem_filter]
  simp

/-! ## Taking out the first of a name -/

theorem eraseP_of_absent (absent : named name functions = []) :
    functions.eraseP (·.name = name) = functions :=
  List.eraseP_of_forall_not (List.filter_eq_nil_iff.mp absent)

/-- The functions of the name move up by one rank. -/
theorem named_eraseP_self (name : String) (functions : List FunctionReport) :
    named name (functions.eraseP (·.name = name)) = (named name functions).tail := by
  induction functions with
  | nil => rfl
  | cons f functions ih =>
      rw [List.eraseP_cons, named_cons]
      by_cases same : f.name = name
      · simp [same]
      · simp [same, named_cons, ih]

/-- All other names are left alone. -/
theorem named_eraseP_of_ne (different : other ≠ name) (functions : List FunctionReport) :
    named other (functions.eraseP (·.name = name)) = named other functions := by
  induction functions with
  | nil => rfl
  | cons f functions ih =>
      rw [List.eraseP_cons, named_cons]
      by_cases same : f.name = name
      · simp [same, different.symm]
      · simp [same, named_cons, ih]

/-- A rank behind the function that was taken out is the next rank of the list before. -/
theorem getElem?_named_eraseP (name other : String) (functions : List FunctionReport)
    (rank : Nat) :
    (named other (functions.eraseP (·.name = name)))[rank]? =
      (named other functions)[if name = other then rank + 1 else rank]? := by
  split <;> rename_i same
  · rw [same, named_eraseP_self, List.getElem?_tail]
  · rw [named_eraseP_of_ne (Ne.symm same)]

theorem length_named_eraseP (name other : String) (functions : List FunctionReport) :
    (named other (functions.eraseP (·.name = name))).length =
      (named other functions).length - if name = other then 1 else 0 := by
  split <;> rename_i same
  · rw [same, named_eraseP_self, List.length_tail]
  · rw [named_eraseP_of_ne (Ne.symm same), Nat.sub_zero]

/-- A list loses a function if there is one to take out. -/
theorem length_eraseP (name : String) (functions : List FunctionReport) :
    (functions.eraseP (·.name = name)).length + (named name functions).head?.toList.length =
      functions.length := by
  cases first : (named name functions).head? with
  | none =>
      rw [eraseP_of_absent (List.head?_eq_none_iff.mp first)]
      rfl
  | some f =>
      have member : f ∈ named name functions := List.mem_of_head? first
      have own : decide (f.name = name) = true := decide_eq_true (name_of_mem_named member)
      exact List.length_eraseP_add_one (List.mem_of_mem_filter member) own

/-! ## Stacks -/

namespace Stacks

variable {kept : Stacks}

/-- The functions on the stack of a name, from its top. -/
def stack (kept : Stacks) (name : String) : List FunctionReport := (kept.lookup name).getD []

/-- The stacks hold the functions of a list, each name in its order. -/
def Holds (kept : Stacks) (functions : List FunctionReport) : Prop :=
  ∀ name, kept.stack name = named name functions

theorem stack_cons (other : String) (s : List FunctionReport) (others : Stacks) (name : String) :
    stack ((other, s) :: others) name = if other = name then s else stack others name := by
  rw [stack, List.lookup_cons]
  by_cases same : other = name
  · simp [same]
  · simp [stack, same, beq_eq_false_iff_ne.mpr (Ne.symm same)]

theorem stack_push (kept : Stacks) (f : FunctionReport) (name : String) :
    (kept.push f).stack name =
      if f.name = name then f :: kept.stack name else kept.stack name := by
  induction kept with
  | nil =>
      rw [push, stack_cons]
      rfl
  | cons entry others ih =>
      obtain ⟨other, s⟩ := entry
      rw [push]
      split
      · rename_i same
        subst same
        rw [stack_cons, stack_cons]
        split <;> rfl
      · rename_i different
        rw [stack_cons, stack_cons, ih]
        split
        · rename_i own
          rw [if_neg fun same => different (own.trans same.symm)]
        · rfl

theorem holds_ofFunctions (functions : List FunctionReport) :
    (ofFunctions functions).Holds functions := by
  rw [ofFunctions, List.foldl_reverse]
  intro name
  induction functions with
  | nil => rfl
  | cons f functions ih => rw [List.foldr_cons, stack_push, ih, named_cons]

/-- What comes off the stack of a name. -/
theorem pop?_eq (name : String) (kept : Stacks) :
    (kept.pop? name = none ∧ kept.stack name = []) ∨
      ∃ f left, kept.pop? name = some (f, left) ∧ kept.stack name = f :: left.stack name ∧
        ∀ other, other ≠ name → left.stack other = kept.stack other := by
  induction kept with
  | nil => exact .inl ⟨rfl, rfl⟩
  | cons entry others ih =>
      obtain ⟨own, s⟩ := entry
      simp only [pop?, stack_cons]
      split
      · rename_i same
        cases s with
        | nil => exact .inl ⟨rfl, rfl⟩
        | cons f below =>
            refine .inr ⟨f, _, rfl, by rw [stack_cons, if_pos same], fun other different => ?_⟩
            rw [stack_cons, if_neg, if_neg]
            · exact fun again => different (again.symm.trans same)
            · exact fun again => different (again.symm.trans same)
      · rename_i different
        rcases ih with ⟨missing, empty⟩ | ⟨f, left, found, first, rest⟩
        · exact .inl ⟨by rw [missing]; rfl, empty⟩
        · refine .inr ⟨f, (own, s) :: left, by rw [found]; rfl, ?_, fun other apart => ?_⟩
          · rw [stack_cons, if_neg different, first]
          · rw [stack_cons, rest other apart]

/-- To take the top off a stack is to take the first function of its name out of the list. -/
theorem Holds.pop? (holds : kept.Holds functions) (name : String) :
    (kept.pop? name = none ∧ named name functions = []) ∨
      ∃ f left, kept.pop? name = some (f, left) ∧ (named name functions).head? = some f ∧
        left.Holds (functions.eraseP (·.name = name)) := by
  rw [← holds name]
  rcases kept.pop?_eq name with ⟨missing, empty⟩ | ⟨f, left, found, first, rest⟩
  · exact .inl ⟨missing, empty⟩
  · refine .inr ⟨f, left, found, by rw [first]; rfl, fun other => ?_⟩
    by_cases same : other = name
    · rw [same, named_eraseP_self, ← holds, first, List.tail_cons]
    · rw [rest other same, named_eraseP_of_ne same, holds]

/-! ## The walk through the new functions -/

/-- One step: a new function meets the first old one of its name that is left, and takes it out. -/
theorem Holds.matchAfter_cons (holds : kept.Holds functions) (f : FunctionReport)
    (rest : List FunctionReport) :
    ∃ left : Stacks, left.Holds (functions.eraseP (·.name = f.name)) ∧
      kept.matchAfter (f :: rest) =
        ((between? f (named f.name functions).head?).toList ++ (left.matchAfter rest).1,
          (left.matchAfter rest).2) := by
  rw [matchAfter]
  rcases holds.pop? f.name with ⟨missing, absent⟩ | ⟨old, left, found, first, holds⟩
  · refine ⟨kept, by rwa [eraseP_of_absent absent], ?_⟩
    rw [missing, absent]
    rfl
  · refine ⟨left, holds, ?_⟩
    simp only [found, first, between?]
    split <;> rfl

/-- The walk matches every new function by its name and rank. -/
theorem Holds.fst_matchAfter (holds : kept.Holds functions) (after : List FunctionReport) :
    (kept.matchAfter after).1 = matched functions after := by
  induction after generalizing kept functions with
  | nil => rfl
  | cons f rest ih =>
      -- The ranks of the rest count from behind `f`, and so do the ranks of what is left.
      have later : matched (functions.eraseP (·.name = f.name)) rest =
          ((ranked rest).map (rankBehind f)).filterMap fun x =>
            between? x.1 (named x.1.name functions)[x.2]? := by
        rw [matched, List.filterMap_map]
        congr 1
        funext x
        rw [getElem?_named_eraseP, Function.comp_apply, rankBehind]
      obtain ⟨left, holds, step⟩ := holds.matchAfter_cons f rest
      rw [step, ih holds, later, matched, ranked_cons, List.head?_eq_getElem?,
        List.filterMap_cons]
      cases between? f (named f.name functions)[0]? <;> rfl

/-- What the walk leaves of a name are the functions whose rank no new function has. Every new
function was matched with an old one that is gone, or it was added. -/
theorem Holds.exists_left (holds : kept.Holds functions) (after : List FunctionReport) :
    ∃ left, (kept.matchAfter after).2.Holds left ∧
      (∀ name, (named name left).length =
        (named name functions).length - (named name after).length) ∧
      after.length + left.length =
        functions.length + (kept.matchAfter after).1.countP SizeChange.isAdded := by
  induction after generalizing kept functions with
  | nil => exact ⟨functions, holds, fun _ => rfl, by simp [matchAfter]⟩
  | cons f rest ih =>
      obtain ⟨others, holds, step⟩ := holds.matchAfter_cons f rest
      obtain ⟨left, holds, fewer, sizes⟩ := ih holds
      rw [step]
      refine ⟨left, holds, fun name => ?_, ?_⟩
      · rw [fewer, length_named_eraseP, named_cons]
        split
        · rw [List.length_cons]
          omega
        · rfl
      · have taken := length_eraseP f.name functions
        have one : (between? f (named f.name functions).head?).toList.countP SizeChange.isAdded +
            (named f.name functions).head?.toList.length = 1 := by
          cases (named f.name functions).head? with
          | none => rfl
          | some old =>
              rw [between?]
              split <;> rfl
        simp only [List.countP_append, List.length_cons]
        omega

/-! ## The walk through the old functions -/

/-- One step: an old function is reported if there is one of its name left, which is taken out. -/
theorem Holds.removals_cons (holds : kept.Holds functions) (f : FunctionReport)
    (rest : List FunctionReport) :
    ∃ left : Stacks, left.Holds (functions.eraseP (·.name = f.name)) ∧
      kept.removals (f :: rest) =
        (if 0 < (named f.name functions).length then [.removed f.name] else []) ++
          left.removals rest := by
  rw [removals]
  rcases holds.pop? f.name with ⟨missing, absent⟩ | ⟨old, left, found, first, holds⟩
  · refine ⟨kept, by rwa [eraseP_of_absent absent], ?_⟩
    rw [missing, absent]
    rfl
  · refine ⟨left, holds, ?_⟩
    rw [found, if_pos (List.length_pos_of_mem (List.mem_of_head? first))]
    rfl

theorem Holds.removals_eq (holds : kept.Holds functions) (before : List FunctionReport) :
    kept.removals before = ((ranked before).filterMap fun x =>
      if x.2 < (named x.1.name functions).length then some x.1.name else none).map .removed := by
  induction before generalizing kept functions with
  | nil => rfl
  | cons f rest ih =>
      obtain ⟨left, holds, step⟩ := holds.removals_cons f rest
      rw [step, ih holds, ranked_cons, List.filterMap_cons, List.filterMap_map]
      have later : ∀ x : FunctionReport × Nat,
          x.2 < (named x.1.name (functions.eraseP (·.name = f.name))).length ↔
            (rankBehind f x).2 < (named x.1.name functions).length := by
        intro x
        rw [length_named_eraseP, rankBehind]
        split <;> omega
      simp only [later, Function.comp_def]
      split <;> rfl

/-- If no name is left more often than it occurs, all that is left is reported. -/
theorem Holds.length_removals (holds : kept.Holds functions) (before : List FunctionReport)
    (fewer : ∀ name, (named name functions).length ≤ (named name before).length) :
    (kept.removals before).length = functions.length := by
  induction before generalizing kept functions with
  | nil =>
      -- No name occurs in the empty list, so none may be left.
      cases functions with
      | nil => rfl
      | cons f rest =>
          have none := fewer f.name
          rw [named_cons, if_pos rfl] at none
          cases none
  | cons f rest ih =>
      obtain ⟨left, holds, step⟩ := holds.removals_cons f rest
      have later := ih holds fun name => by
        have bound := fewer name
        rw [named_cons] at bound
        rw [length_named_eraseP]
        split <;> rename_i same
        · rw [if_pos same, List.length_cons] at bound
          omega
        · rwa [if_neg same] at bound
      have taken := length_eraseP f.name functions
      rw [step, List.length_append, later, ← taken, Nat.add_comm]
      cases named f.name functions <;> rfl

end Stacks

/-! ## All changes -/

theorem diff_eq (before after : List FunctionReport) :
    diff before after = matched before after ++ (surplus before after).map .removed := by
  have holds := Stacks.holds_ofFunctions before
  obtain ⟨left, held, fewer, -⟩ := holds.exists_left after
  calc diff before after
      = ((Stacks.ofFunctions before).matchAfter after).1 ++
          ((Stacks.ofFunctions before).matchAfter after).2.removals before := rfl
    _ = matched before after ++ (surplus before after).map .removed := by
        rw [holds.fst_matchAfter, held.removals_eq, surplus]
        simp only [fewer]

theorem countP_zipIdx_lt {n : Nat} (small : n ≤ functions.length) :
    functions.zipIdx.countP (·.2 < n) = n := by
  calc functions.zipIdx.countP (·.2 < n)
      = (functions.zipIdx.map Prod.snd).countP (· < n) := by
        rw [List.countP_map]
        rfl
    _ = ((List.Ico 0 functions.length).filter (· < n)).length := by
        rw [List.zipIdx_map_snd, List.countP_eq_length_filter]
        rfl
    _ = n := by rw [List.Ico.filter_lt_of_ge small, List.Ico.length, Nat.sub_zero]

/-- A name is too many among the old functions as often as it occurs more often there. -/
theorem count_surplus (before after : List FunctionReport) (name : String) :
    (surplus before after).count name =
      (named name before).length - (named name after).length := by
  have own : ∀ x : FunctionReport × Nat,
      ((if x.2 < (named x.1.name before).length - (named x.1.name after).length then some x.1.name
        else none) == some name) =
      (decide (x.2 < (named name before).length - (named name after).length) &&
        decide (x.1.name = name)) := by
    intro x
    by_cases same : x.1.name = name
    · rw [same]
      split <;> simp_all
    · split <;> simp [same]
  rw [surplus, List.count_filterMap]
  simp only [own]
  rw [← List.countP_filter, filter_ranked]
  exact countP_zipIdx_lt (Nat.sub_le _ _)

theorem between?_eq_none {partner : Option FunctionReport} :
    between? f partner = none ↔ partner.map (·.loc) = some f.loc := by
  cases partner with
  | none => simp [between?]
  | some old => simp [between?]

/-- Nothing is reported of the new functions if each of them has a partner of its size. -/
theorem matched_eq_nil (before after : List FunctionReport) :
    matched before after = [] ↔
      ∀ name, (named name after).map (·.loc) <+: (named name before).map (·.loc) := by
  rw [matched, List.filterMap_eq_nil_iff]
  constructor
  · intro silent name
    refine List.prefix_iff_getElem?.mpr fun rank inside => ?_
    rw [List.length_map] at inside
    have own := name_of_mem_named (List.getElem_mem inside)
    have member : ((named name after)[rank], rank) ∈ ranked after := by
      rw [mem_ranked, own]
      exact List.getElem?_eq_getElem inside
    have partner := between?_eq_none.mp (silent _ member)
    rw [own] at partner
    rw [List.getElem?_map, List.getElem_map, partner]
  · rintro begins ⟨f, rank⟩ member
    obtain ⟨inside, same⟩ := List.getElem?_eq_some_iff.mp (mem_ranked.mp member)
    have partner := List.prefix_iff_getElem?.mp (begins f.name) rank (by simpa using inside)
    rw [List.getElem?_map, List.getElem_map, same] at partner
    exact between?_eq_none.mpr partner

theorem surplus_eq_nil (before after : List FunctionReport) :
    surplus before after = [] ↔
      ∀ name, (named name before).length ≤ (named name after).length := by
  simp only [List.eq_nil_iff_forall_not_mem, ← List.count_eq_zero, count_surplus,
    Nat.sub_eq_zero_iff_le]

theorem isRemoved_of_between? {partner : Option FunctionReport} {change : SizeChange}
    (reported : between? f partner = some change) : change.isRemoved = false := by
  cases partner with
  | none =>
      obtain rfl := Option.some.inj reported
      rfl
  | some old =>
      rw [between?] at reported
      split at reported
      · cases reported
      · obtain rfl := Option.some.inj reported
        rfl

theorem countP_isRemoved_matched (before after : List FunctionReport) :
    (matched before after).countP SizeChange.isRemoved = 0 := by
  refine List.countP_eq_zero.mpr fun change member => ?_
  obtain ⟨x, -, reported⟩ := List.mem_filterMap.mp member
  rw [isRemoved_of_between? reported]
  exact Bool.false_ne_true

/-- The number of functions changes by those that are added and those that are removed. -/
theorem length_add_countP_isRemoved (before after : List FunctionReport) :
    after.length + (diff before after).countP SizeChange.isRemoved =
      before.length + (diff before after).countP SizeChange.isAdded := by
  have holds := Stacks.holds_ofFunctions before
  obtain ⟨left, held, fewer, sizes⟩ := holds.exists_left after
  have all : (surplus before after).length = left.length := by
    rw [← held.length_removals before fun name => fewer name ▸ Nat.sub_le _ _, held.removals_eq,
      List.length_map, surplus]
    simp only [fewer]
  have added : ((surplus before after).map SizeChange.removed).countP SizeChange.isAdded = 0 := by
    rw [List.countP_map]
    exact congrFun List.countP_false _
  have removed : ((surplus before after).map SizeChange.removed).countP SizeChange.isRemoved =
      (surplus before after).length := by
    rw [List.countP_map]
    exact congrFun List.countP_true _
  rw [diff_eq, List.countP_append, List.countP_append, added, removed, countP_isRemoved_matched,
    all, ← holds.fst_matchAfter after]
  omega

/-- The changes between two measurements, by occurrence. First come the new functions in order, each
matched by its name and rank, and then the names that are too many among the old functions. So there
are none exactly if every name has the same sizes in the same order, and the number of functions has
grown by those added and shrunk by those removed. -/
theorem diff_by_occurrence (before after : List FunctionReport) :
    diff before after = matched before after ++ (surplus before after).map .removed ∧
    (∀ name, (surplus before after).count name =
      (named name before).length - (named name after).length) ∧
    (diff before after = [] ↔
      ∀ name, (named name before).map (·.loc) = (named name after).map (·.loc)) ∧
    (after.length : Int) = before.length + (diff before after).countP SizeChange.isAdded -
      (diff before after).countP SizeChange.isRemoved := by
  refine ⟨diff_eq before after, count_surplus before after, ?_, ?_⟩
  · rw [diff_eq, List.append_eq_nil_iff, List.map_eq_nil_iff, matched_eq_nil, surplus_eq_nil]
    constructor
    · rintro ⟨begins, fewer⟩ name
      exact ((begins name).eq_of_length_le (by simpa using fewer name)).symm
    · intro same
      refine ⟨fun name => same name ▸ List.prefix_rfl, fun name => ?_⟩
      simpa using (congrArg List.length (same name)).le
  · have sizes := length_add_countP_isRemoved before after
    omega

end FunctionMeter.Watch
