import FunctionMeter.Proofs.Path
import FunctionMeter.Watch
import Mathlib

/-!
# What a watch passes over

Whether a path below the watched directory is ignored depends only on the way from there to it: on
the names that a relative path adds. The names above do not count, so a watched directory may itself
be hidden or lie among build products. Nor does the spelling count, since components are compared
and not texts: `/repository` does not start with `/repo`.
-/

namespace FunctionMeter

namespace Path

variable {root path relative : String}

theorem below?_of_components {more : List Component}
    (onward : components path = components root ++ more) : below? root path = some more := by
  have begins : (components root).isPrefixOf (components path) = true := by
    rw [List.isPrefixOf_iff_prefix, onward]
    exact List.prefix_append _ _
  simp only [below?, begins, if_true]
  rw [onward, List.drop_left]

/-- A path made of names alone starts neither at the root nor with a dot. -/
theorem inner_eq_components (named : ∀ c ∈ components relative, ∃ name, c = .normal name) :
    inner relative = components relative := by
  rw [inner_eq_filter, List.filter_eq_self]
  intro c member
  obtain ⟨name, rfl⟩ := named c member
  rfl

theorem components_ne_nil (absolute : isAbsolute path = true) : components path ≠ [] := by
  rw [components_eq, start, if_pos absolute]
  exact List.cons_ne_nil _ _

theorem ne_empty_of_components (any : components path ≠ []) : path ≠ "" := by
  rintro rfl
  exact any rfl

end Path

namespace Watch

theorem isIgnored_of_components {root path : String} {more : List Path.Component}
    (onward : Path.components path = Path.components root ++ more) :
    isIgnored root path = more.any fun c => isIgnoredName c.text := by
  rw [isIgnored, Path.below?_of_components onward, Option.getD_some]

theorem isIgnoredName_iff {name : String} : isIgnoredName name = true ↔
    name.toList.head? = some '.' ∨
      name ∈ ["target", "node_modules", "__pycache__", "dist", "build"] := by
  simp [isIgnoredName, ignoredNames]

/-- Let a path lead from an absolute root on by a relative path that is made of names. However the
root and the path are spelled, the path is ignored exactly if one of the names starts with a dot or
is that of a directory for build products or dependencies. Every path that goes on from an ignored
one is ignored too. -/
theorem isIgnored_iff_below_root {root relative root' path : String}
    (absolute : Path.isAbsolute root = true)
    (named : ∀ c ∈ Path.components relative, ∃ name, c = .normal name)
    (sameRoot : Path.Respelled root root')
    (same : Path.Respelled (Path.join root relative) path) :
    (isIgnored root' path = true ↔ ∃ name, .normal name ∈ Path.components relative ∧
      (name.toList.head? = some '.' ∨
        name ∈ ["target", "node_modules", "__pycache__", "dist", "build"])) ∧
    (isIgnored root' path = true → ∀ more longer, Path.isAbsolute more = false →
      Path.Respelled (Path.join path more) longer → isIgnored root' longer = true) := by
  have any := Path.components_ne_nil absolute
  have given := Path.ne_empty_of_components any
  have onward : Path.components path = Path.components root' ++ Path.components relative := by
    rw [same.components_eq, sameRoot.components_eq, Path.components_join given,
      Path.inner_eq_components named]
  constructor
  · rw [isIgnored_of_components onward, List.any_eq_true]
    constructor
    · rintro ⟨c, member, ignored⟩
      obtain ⟨name, rfl⟩ := named c member
      exact ⟨name, member, isIgnoredName_iff.mp ignored⟩
    · rintro ⟨name, member, ignored⟩
      exact ⟨.normal name, member, isIgnoredName_iff.mpr ignored⟩
  · intro ignored more longer _ spelled
    have filled : path ≠ "" := by
      apply Path.ne_empty_of_components
      rw [onward, sameRoot.components_eq]
      exact List.append_ne_nil_of_left_ne_nil any _
    have further : Path.components longer =
        Path.components root' ++ (Path.components relative ++ Path.inner more) := by
      rw [spelled.components_eq, Path.components_join filled, onward, List.append_assoc]
    rw [isIgnored_of_components onward] at ignored
    rw [isIgnored_of_components further, List.any_append, ignored, Bool.true_or]

/-- The root lies among build products and is spelled with a double slash. Below it, a directory of
dependencies is ignored, written with an inner dot, and so is what lies in it; `builder.rs` is not. -/
theorem isIgnored_iff_below_root_build :
    isIgnored "/home//build/repo" "/home/build/repo/./web/node_modules" = true ∧
    isIgnored "/home//build/repo" "/home/build/repo/./web/node_modules/a/index.js" = true ∧
    isIgnored "/home//build/repo" "/home/build/repo/src/builder.rs" = false := by
  have absolute : Path.isAbsolute "/home/build/repo" = true := by decide
  have sameRoot : Path.Respelled "/home/build/repo" "/home//build/repo" :=
    .rel _ _ (.slash "/home" "build/repo")
  have dotted : Path.Respelled (Path.join "/home/build/repo" "web/node_modules")
      "/home/build/repo/./web/node_modules" :=
    .rel _ _ (.dot "/home/build/repo" "web/node_modules")
  have plain : Path.Respelled (Path.join "/home/build/repo" "src/builder.rs")
      "/home/build/repo/src/builder.rs" :=
    .refl _
  have modules : Path.components "web/node_modules" = [.normal "web", .normal "node_modules"] := by
    decide
  have builder : Path.components "src/builder.rs" = [.normal "src", .normal "builder.rs"] := by
    decide
  obtain ⟨ignored, below⟩ := isIgnored_iff_below_root absolute (by simp [modules]) sameRoot dotted
  have dependencies := ignored.mpr ⟨"node_modules", by simp [modules], .inr (by decide)⟩
  obtain ⟨source, -⟩ := isIgnored_iff_below_root absolute (by simp [builder]) sameRoot plain
  refine ⟨dependencies, below dependencies "a/index.js" _ (by decide) (.refl _), ?_⟩
  rw [Bool.eq_false_iff]
  intro wrong
  obtain ⟨name, member, ignored⟩ := source.mp wrong
  simp only [builder, List.mem_cons, Path.Component.normal.injEq, List.not_mem_nil, or_false]
    at member
  rcases member with rfl | rfl
  · revert ignored
    decide
  · revert ignored
    decide

end Watch

end FunctionMeter
