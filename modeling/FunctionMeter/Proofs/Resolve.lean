import FunctionMeter.Proofs.Files
import FunctionMeter.Proofs.Json.Decode
import FunctionMeter.Proofs.Path
import Mathlib

/-!
# Where paths lead

In a well-formed file tree a directory holds at most one entry of a name, and only names that a path
takes for names. There, a path to a directory and a name in it make a path to the entry of that
name. Where a path leads can be told from its components. The converse holds for paths without `..`
that start alike: if two of them lead to one place, they have the same components.
-/

namespace FunctionMeter

/-! ## Well-formed trees -/

namespace Entry

/-- All directories hold entries with different proper names. -/
inductive WellFormed : Entry → Prop where
  | file (content : Content) (root : Option Node) : WellFormed (.file content root)
  | directory {entries : List (String × Entry)} (distinct : (entries.map (·.1)).Nodup)
      (proper : ∀ e ∈ entries, Path.IsName e.1) (below : ∀ e ∈ entries, WellFormed e.2) :
      WellFormed (.directory entries)

/-- An entry of a directory is the one that its name leads to. -/
theorem lookup_of_mem {entries : List (String × Entry)} (distinct : (entries.map (·.1)).Nodup)
    {e : String × Entry} (member : e ∈ entries) : entries.lookup e.1 = some e.2 :=
  (lookup_eq_some_iff_mem (List.nodup_iff_count_le_one.mp distinct e.1)).mpr member

/-- One step down a tree. -/
theorem at?_child {e child : Entry} {names : List String} {entries : List (String × Entry)}
    {name : String} (here : e.at? names = some (.directory entries))
    (found : entries.lookup name = some child) : e.at? (names ++ [name]) = some child := by
  rw [at?_append, here]
  simp [at?, child?, found]

namespace WellFormed

variable {e : Entry}

theorem lookup {entries : List (String × Entry)} (formed : WellFormed (.directory entries))
    {name : String} {child : Entry} (found : entries.lookup name = some child) :
    Path.IsName name ∧ child.WellFormed := by
  cases formed with
  | directory distinct proper below =>
      rw [lookup_eq_some_iff_mem (List.nodup_iff_count_le_one.mp distinct name)] at found
      exact ⟨proper _ found, below _ found⟩

theorem at? {names : List String} {there : Entry} (formed : e.WellFormed)
    (found : e.at? names = some there) : there.WellFormed := by
  induction names generalizing e with
  | nil =>
      cases found
      exact formed
  | cons name names ih =>
      obtain ⟨child, next, later⟩ := Option.bind_eq_some_iff.mp found
      cases e with
      | file content root => cases next
      | directory entries => exact ih (formed.lookup next).2 later

end WellFormed

/-! A tree stays well formed when entries are put into it. -/

theorem mem_replace {name : String} {entry : Entry} {entries : List (String × Entry)}
    {e : String × Entry} (member : e ∈ replace name entry entries) :
    e = (name, entry) ∨ e ∈ entries := by
  induction entries with
  | nil => exact .inl (List.mem_singleton.mp member)
  | cons first rest ih =>
      obtain ⟨n, other⟩ := first
      rw [replace] at member
      split_ifs at member with same
      · rcases List.mem_cons.mp member with rfl | later
        · exact .inl (by rw [same])
        · exact .inr (List.mem_cons_of_mem _ later)
      · rcases List.mem_cons.mp member with rfl | later
        · exact .inr List.mem_cons_self
        · exact (ih later).imp_right (List.mem_cons_of_mem _)

theorem map_fst_replace (name : String) (entry : Entry) (entries : List (String × Entry)) :
    (replace name entry entries).map (·.1) =
      if name ∈ entries.map (·.1) then entries.map (·.1) else entries.map (·.1) ++ [name] := by
  induction entries with
  | nil => rfl
  | cons first rest ih =>
      obtain ⟨n, other⟩ := first
      rw [replace]
      by_cases same : n = name
      · simp [same]
      · rw [if_neg same, List.map_cons, ih, List.map_cons]
        simp only [List.mem_cons, Ne.symm same, false_or]
        split_ifs <;> rfl

namespace WellFormed

theorem replace {entries : List (String × Entry)} (formed : WellFormed (.directory entries))
    {name : String} {entry : Entry} (proper : Path.IsName name) (fresh : entry.WellFormed) :
    WellFormed (.directory (replace name entry entries)) := by
  cases formed with
  | directory distinct named below =>
      refine .directory ?_ ?_ ?_
      · rw [map_fst_replace]
        split_ifs with taken
        · exact distinct
        · rw [← List.concat_eq_append]
          exact distinct.concat taken
      · intro e member
        rcases mem_replace member with rfl | old
        · exact proper
        · exact named e old
      · intro e member
        rcases mem_replace member with rfl | old
        · exact fresh
        · exact below e old

theorem insert {e entry : Entry} {names : List String} (formed : e.WellFormed)
    (proper : ∀ name ∈ names, Path.IsName name) (fresh : entry.WellFormed) :
    (e.insert entry names).WellFormed := by
  have empty : WellFormed (.directory []) := .directory .nil nofun nofun
  induction names generalizing e with
  | nil =>
      unfold Entry.insert
      split
      · exact formed
      · exact fresh
  | cons name names ih =>
      obtain ⟨first, others⟩ := List.forall_mem_cons.mp proper
      cases e with
      | file content root => exact replace empty first (ih empty others)
      | directory entries =>
          refine replace formed first (ih ?_ others)
          cases found : entries.lookup name with
          | none => exact empty
          | some child => exact (formed.lookup found).2

end WellFormed

end Entry

/-! ## Joined paths -/

namespace Files

variable {files : Files} {path : String} {names : List String}

theorem ne_empty_of_resolve? (resolved : files.resolve? path = some names) : path ≠ "" := by
  rintro rfl
  cases resolved

/-- Where a path starts from. -/
def base (files : Files) (path : String) : List String :=
  if Path.isAbsolute path then [] else files.current

theorem resolve?_eq (given : path ≠ "") :
    files.resolve? path = follow files.root (files.base path) (Path.pieces path) := by
  rw [resolve?, if_neg given]
  rfl

theorem follow_blank {root : Entry} {names names' : List String}
    (followed : follow root names [""] = some names') : names' = names := by
  simp only [follow, true_or, if_true] at followed
  split at followed
  · exact (Option.some.inj followed).symm
  · cases followed

/-- A name in a directory makes a path to an entry from a path to the directory. -/
theorem resolve?_join {entries : List (String × Entry)} {name : String} {child : Entry}
    (formed : files.root.WellFormed) (resolved : files.resolve? path = some names)
    (directory : files.root.at? names = some (.directory entries))
    (found : entries.lookup name = some child) :
    files.resolve? (Path.join path name) = some (names ++ [name]) := by
  have given := ne_empty_of_resolve? resolved
  obtain ⟨proper, -⟩ := (formed.at? directory).lookup found
  obtain ⟨named, dot, dots, flat⟩ := proper
  have same : files.base (Path.join path name) = files.base path := by
    rw [base, base, Path.isAbsolute_join given]
  have step : follow files.root names [name] = some (names ++ [name]) := by
    simp only [follow, directory, found, named, dot, dots, or_self, if_false, Option.isSome_some,
      if_true]
  obtain ⟨front, -, joined, pieces⟩ := Path.pieces_join given flat
  have before : follow files.root (files.base path) front = some names := by
    rw [resolve?_eq given] at resolved
    rcases pieces with pieces | pieces
    · rw [← pieces, resolved]
    · rw [pieces, follow_append, Option.bind_eq_some_iff] at resolved
      obtain ⟨there, followed, stayed⟩ := resolved
      rw [followed, follow_blank stayed]
  rw [resolve?_eq (Path.join_ne_empty given), same, joined, follow_append, before]
  exact step

/-! ## Components -/

/-- Where a component leads, given the names that lead to a directory. -/
def step (names : List String) : Path.Component → List String
  | .root | .current => names
  | .parent => names.dropLast
  | .normal name => names ++ [name]

/-- Where pieces lead can be told from the components that they stand for. -/
theorem follow_eq {root : Entry} {pieces there : List String}
    (followed : follow root names pieces = some there) :
    there = (pieces.filterMap Path.inner?).foldl step names := by
  induction pieces generalizing names with
  | nil => exact (Option.some.inj followed).symm
  | cons piece pieces ih =>
      simp only [follow] at followed
      split at followed
      · split_ifs at followed with stays up there
        · have blank : Path.inner? piece = none := if_pos stays
          rw [List.filterMap_cons_none blank]
          exact ih followed
        · have parent : Path.inner? piece = some .parent := by
            rw [Path.inner?, if_neg stays, if_pos up]
          rw [List.filterMap_cons_some parent]
          exact ih followed
        · have normal : Path.inner? piece = some (.normal piece) := by
            rw [Path.inner?, if_neg stays, if_neg up]
          rw [List.filterMap_cons_some normal]
          exact ih followed
      · cases followed

theorem resolve?_eq_foldl (resolved : files.resolve? path = some names) :
    names = (Path.inner path).foldl step (files.base path) := by
  rw [resolve?_eq (ne_empty_of_resolve? resolved)] at resolved
  exact follow_eq resolved

theorem base_eq_of_start {path' : String} (alike : Path.start path = Path.start path') :
    files.base path = files.base path' := by
  rw [base, base, Path.isAbsolute_eq_start, Path.isAbsolute_eq_start, alike]

/-- Paths with the same components lead to one place, if they lead anywhere. -/
theorem resolve?_of_components {path' : String} {names' : List String}
    (same : Path.components path = Path.components path')
    (resolved : files.resolve? path = some names)
    (resolved' : files.resolve? path' = some names') : names = names' := by
  rw [resolve?_eq_foldl resolved, resolve?_eq_foldl resolved', Path.inner_eq_filter,
    Path.inner_eq_filter, same, base_eq_of_start (Path.start_eq_of_components same)]

theorem foldl_step_normal (names below : List String) :
    (below.map Path.Component.normal).foldl step names = names ++ below := by
  induction below generalizing names with
  | nil => exact (List.append_nil names).symm
  | cons name below ih =>
      rw [List.map_cons, List.foldl_cons, ih, step, List.append_assoc]
      rfl

/-- Two paths to one place without `..` have the same components if they start alike. -/
theorem components_eq_of_resolve? {path' : String} (direct : .parent ∉ Path.components path)
    (direct' : .parent ∉ Path.components path') (alike : Path.start path = Path.start path')
    (resolved : files.resolve? path = some names) (resolved' : files.resolve? path' = some names) :
    Path.components path = Path.components path' := by
  obtain ⟨below, spelled⟩ := Path.exists_names_of_direct direct
  obtain ⟨below', spelled'⟩ := Path.exists_names_of_direct direct'
  have there := resolve?_eq_foldl resolved
  have there' := resolve?_eq_foldl resolved'
  rw [spelled, foldl_step_normal] at there
  rw [spelled', foldl_step_normal, ← base_eq_of_start alike, there] at there'
  rw [Path.components_eq, Path.components_eq, alike, spelled, spelled',
    List.append_cancel_left there']

end Files

end FunctionMeter
