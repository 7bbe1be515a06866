import FunctionMeter.Language.Role
import Mathlib

/-!
# Kinds of callables

The kind of a symbol is decided in two steps: the grammar gives a callable node a base kind, and the
name and the surroundings of the node refine it. Neither step leads out of the function-like kinds.
-/

namespace FunctionMeter.Language

variable {language : Language} {node : Node} {base : SymbolKind}

/-- What a grammar declares as callable is function-like. -/
theorem isFunctionLike_of_role (callable : language.role node = some (.callable base)) :
    base.isFunctionLike = true := by
  cases language <;> simp only [role] at callable <;> split at callable <;>
    grind [SymbolKind.isFunctionLike]

/-- No refinement makes a function-like kind anything else. -/
theorem isFunctionLike_refineKind (name : String) (enclosing : Option (Role × String))
    (like : base.isFunctionLike = true) :
    (language.refineKind base name enclosing).isFunctionLike = true := by
  cases language <;> grind [refineKind, SymbolKind.isFunctionLike]

theorem base_of_role_rust (callable : role .rust node = some (.callable base)) :
    base = .function := by
  simp only [role] at callable
  split at callable <;> grind

/-- A function is a method exactly if it is directly inside a container. -/
theorem refineKind_rust_eq_method {name : String} {enclosing : Option (Role × String)} :
    refineKind .rust .function name enclosing = .method ↔
      ∃ owner, enclosing = some (.container, owner) := by
  simp only [refineKind]
  split
  · rename_i inside
    obtain ⟨⟨role, owner⟩, found⟩ := Option.isSome_iff_exists.mp inside
    obtain ⟨rfl, container⟩ := Option.filter_eq_some_iff.mp found
    cases role with
    | container => exact ⟨fun _ => ⟨owner, rfl⟩, fun _ => rfl⟩
    | callable base => cases container
  · rename_i outside
    refine ⟨nofun, ?_⟩
    rintro ⟨owner, rfl⟩
    exact absurd rfl outside

end FunctionMeter.Language
