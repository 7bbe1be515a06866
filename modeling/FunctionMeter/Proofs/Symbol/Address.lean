import FunctionMeter.Symbol
import Mathlib

/-!
# Addresses in a forest

Every symbol of a forest has an address: the index of its tree, then the index of a child on each
level down to it. Addresses are ordered as lists, so that an address stands before all addresses
that it begins. This is document order: a symbol comes before everything below it, and everything
below it comes before the next tree.

`addressed` walks a forest in the order of `preorderAll` and tells where each symbol stands. The
lemmas say that the walk goes through the addresses in strictly increasing order and meets exactly
the symbols that `at?` finds, whatever kind of symbol they lie below.
-/

namespace FunctionMeter.Symbol

/-- The symbol reached from a symbol by going to the child with the given index on each level. -/
def descend? (s : Symbol) : List Nat → Option Symbol
  | [] => some s
  | i :: rest => s.children[i]?.bind (·.descend? rest)

/-- The symbol at an address of a forest; nothing stands at the empty address. -/
def at? (forest : List Symbol) : List Nat → Option Symbol
  | [] => none
  | i :: rest => forest[i]?.bind (·.descend? rest)

theorem at?_nil (address : List Nat) : at? [] address = none := by
  cases address <;> rfl

theorem at?_zero (s : Symbol) (forest : List Symbol) (address : List Nat) :
    at? (s :: forest) (0 :: address) = s.descend? address := rfl

theorem at?_succ (s : Symbol) (forest : List Symbol) (i : Nat) (address : List Nat) :
    at? (s :: forest) ((i + 1) :: address) = at? forest (i :: address) := rfl

/-- Going down from a symbol is looking into the forest of its children. -/
theorem descend?_cons (s : Symbol) (i : Nat) (address : List Nat) :
    s.descend? (i :: address) = at? s.children (i :: address) := rfl

/-- Induction over a forest: a first tree is reduced to its children, and the trees behind it to
themselves. -/
@[elab_as_elim]
theorem forest_induction {motive : List Symbol → Prop} (nil : motive [])
    (cons : ∀ s forest, motive s.children → motive forest → motive (s :: forest)) :
    ∀ forest, motive forest
  | [] => nil
  | ⟨name, kind, full, signature, children⟩ :: forest =>
    cons ⟨name, kind, full, signature, children⟩ forest (forest_induction nil cons children)
      (forest_induction nil cons forest)

theorem preorderAll_cons (s : Symbol) (forest : List Symbol) :
    preorderAll (s :: forest) = s :: (preorderAll s.children ++ preorderAll forest) := by
  cases s
  rw [preorderAll, preorder, List.cons_append]

mutual

/-- A symbol and everything below it in document order with their addresses, if the symbol is the
tree with index `i`. -/
def addressedTree (i : Nat) : Symbol → List (List Nat × Symbol)
  | ⟨name, kind, full, signature, children⟩ =>
    ([i], ⟨name, kind, full, signature, children⟩) ::
      (addressed 0 children).map (Prod.map (i :: ·) id)

/-- The symbols of a forest in document order with their addresses, if its first tree has index
`i`. -/
def addressed (i : Nat) : List Symbol → List (List Nat × Symbol)
  | [] => []
  | s :: forest => addressedTree i s ++ addressed (i + 1) forest

end

theorem addressed_cons (i : Nat) (s : Symbol) (forest : List Symbol) :
    addressed i (s :: forest) =
      ([i], s) :: ((addressed 0 s.children).map (Prod.map (i :: ·) id) ++
        addressed (i + 1) forest) := by
  cases s
  rw [addressed, addressedTree, List.cons_append]

theorem map_snd_addressed (i : Nat) (forest : List Symbol) :
    (addressed i forest).map Prod.snd = preorderAll forest := by
  induction forest using forest_induction generalizing i with
  | nil => rfl
  | cons s forest children rest =>
      have below : ((addressed 0 s.children).map (Prod.map (i :: ·) id)).map Prod.snd =
          preorderAll s.children := by
        rw [List.map_map, ← children 0]
        rfl
      rw [addressed_cons, preorderAll_cons, List.map_cons, List.map_append, below, rest]

/-- The walk lists a symbol under an address exactly if it stands there. -/
theorem mem_addressed {i : Nat} {forest : List Symbol} {address : List Nat} {t : Symbol} :
    (address, t) ∈ addressed i forest ↔
      ∃ j rest, address = (i + j) :: rest ∧ at? forest (j :: rest) = some t := by
  induction forest using forest_induction generalizing i address with
  | nil => simp [addressed, at?_nil]
  | cons s forest children later =>
      rw [addressed_cons, List.mem_cons, List.mem_append, List.mem_map, later]
      constructor
      · rintro (here | ⟨⟨below, u⟩, member, same⟩ | ⟨j, rest, rfl, found⟩)
        · obtain ⟨rfl, rfl⟩ := Prod.mk.inj here
          exact ⟨0, [], rfl, rfl⟩
        · obtain ⟨rfl, rfl⟩ := Prod.mk.inj same
          obtain ⟨j, rest, rfl, found⟩ := children.mp member
          exact ⟨0, (0 + j) :: rest, rfl, by rw [Nat.zero_add]; exact found⟩
        · exact ⟨j + 1, rest, by rw [Nat.add_right_comm, Nat.add_assoc], found⟩
      · rintro ⟨j, rest, rfl, found⟩
        cases j with
        | zero =>
            rw [at?_zero] at found
            cases rest with
            | nil => exact .inl (by rw [← Option.some.inj found]; rfl)
            | cons k rest =>
                rw [descend?_cons] at found
                refine .inr (.inl ⟨(k :: rest, t), children.mpr ⟨k, rest, ?_, found⟩, rfl⟩)
                rw [Nat.zero_add]
        | succ j =>
            rw [at?_succ] at found
            exact .inr (.inr ⟨j, rest, by rw [Nat.add_right_comm, Nat.add_assoc], found⟩)

theorem mem_addressed_zero {forest : List Symbol} {address : List Nat} {t : Symbol} :
    (address, t) ∈ addressed 0 forest ↔ at? forest address = some t := by
  rw [mem_addressed]
  constructor
  · rintro ⟨j, rest, rfl, found⟩
    rwa [Nat.zero_add]
  · intro found
    cases address with
    | nil => cases found
    | cons j rest => exact ⟨j, rest, by rw [Nat.zero_add], found⟩

/-- The walk never steps back: it goes through the addresses in strictly increasing order. -/
theorem addressed_sorted (i : Nat) (forest : List Symbol) :
    (addressed i forest).Pairwise fun a b => a.1 < b.1 := by
  induction forest using forest_induction generalizing i with
  | nil => exact .nil
  | cons s forest children later =>
      -- Addresses below the first tree begin with `i` and those of later trees with more than `i`.
      have beyond : ∀ b ∈ addressed (i + 1) forest, ∃ j rest, i < j ∧ b.1 = j :: rest := by
        rintro ⟨address, t⟩ member
        obtain ⟨j, rest, rfl, -⟩ := mem_addressed.mp member
        exact ⟨i + 1 + j, rest, by omega, rfl⟩
      rw [addressed_cons, List.pairwise_cons, List.pairwise_append, List.pairwise_map]
      refine ⟨?_, (children 0).imp fun less => List.cons_lt_cons_self.mpr less, later (i + 1), ?_⟩
      · intro b member
        rcases List.mem_append.mp member with below | after
        · obtain ⟨⟨address, t⟩, inside, rfl⟩ := List.mem_map.mp below
          obtain ⟨j, rest, rfl, -⟩ := mem_addressed.mp inside
          exact List.Lex.cons .nil
        · obtain ⟨j, rest, less, same⟩ := beyond b after
          rw [same]
          exact .rel less
      · intro a below b after
        obtain ⟨⟨address, t⟩, -, rfl⟩ := List.mem_map.mp below
        obtain ⟨j, rest, less, same⟩ := beyond b after
        rw [same]
        exact .rel less

end FunctionMeter.Symbol
