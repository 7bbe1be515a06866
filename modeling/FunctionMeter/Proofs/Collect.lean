import FunctionMeter.Proofs.Report.Build
import FunctionMeter.Proofs.Resolve
import Mathlib

/-!
# The files that are listed

The `analyze` command collects the files that its paths reach, keeps one spelling of each path, and
lists what it measured in the order of the paths. Two paths are taken for one if they have the same
components: sorted by their components they stand side by side, and of neighbours the first is kept.
So the order of the arguments decides at most how a path is spelled, and not even that if all of
them are well spelled. But a file is listed once for each path with components of its own, also if
the paths lead to the same place.
-/

namespace FunctionMeter

/-! ## Walks -/

namespace Ignore

theorem mem_walkEntries {levels : List Level} {path : String} {names : List String}
    {entries : List (String × Entry)} {t : Found}
    (member : t ∈ walkEntries levels path names entries) :
    ∃ e ∈ entries, t ∈ walkEntry levels (Path.join path e.1) (names ++ [e.1]) e.2 := by
  induction entries with
  | nil => cases member
  | cons first rest ih =>
      obtain ⟨name, entry⟩ := first
      rw [walkEntries] at member
      rcases List.mem_append.mp member with here | later
      · exact ⟨(name, entry), List.mem_cons_self, here⟩
      · obtain ⟨e, inside, found⟩ := ih later
        exact ⟨e, List.mem_cons_of_mem _ inside, found⟩

/-- A find below a path: its own path goes on from there and leads to it, and it is a file. -/
structure Found.Below (files : Files) (path : String) (t : Found) : Prop where
  onward : Path.Extends path t.path
  resolved : files.resolve? t.path = some t.names
  file : ∃ content root, files.root.at? t.names = some (.file content root)

variable {files : Files} {path : String} {names : List String} {t : Found}

/-- One step down a walk: what is found below the entries of a directory is found below it. -/
theorem below_of_mem_walkEntries {levels : List Level} {entries : List (String × Entry)}
    (formed : files.root.WellFormed) (resolved : files.resolve? path = some names)
    (here : files.root.at? names = some (.directory entries))
    (each : ∀ e ∈ entries, ∀ {path names}, files.resolve? path = some names →
      files.root.at? names = some e.2 → t ∈ walkEntry levels path names e.2 → t.Below files path)
    (member : t ∈ walkEntries levels path names entries) : t.Below files path := by
  cases formed.at? here with
  | directory distinct proper =>
      obtain ⟨e, inside, found⟩ := mem_walkEntries member
      have child := Entry.lookup_of_mem distinct inside
      have below := each e inside (Files.resolve?_join formed resolved here child)
        (Entry.at?_child here child) found
      have step := Path.Extends.join (Files.ne_empty_of_resolve? resolved) (proper e inside)
      exact ⟨step.trans below.onward, below.resolved, below.file⟩

-- The induction is on the tree below the path; the levels only decide what is skipped.
theorem below_of_mem_walkEntry {levels : List Level} {e : Entry} (formed : files.root.WellFormed)
    (resolved : files.resolve? path = some names) (here : files.root.at? names = some e)
    (member : t ∈ walkEntry levels path names e) : t.Below files path := by
  induction formed.at? here generalizing levels path names with
  | file content root =>
      rw [walkEntry] at member
      split_ifs at member
      · cases member
      · rw [List.mem_singleton.mp member]
        exact ⟨.refl path, resolved, content, root, here⟩
  | directory distinct proper below ih =>
      rw [walkEntry] at member
      split_ifs at member
      · cases member
      · exact below_of_mem_walkEntries formed resolved here (fun e inside => ih e inside) member

theorem below_of_mem_walk (formed : files.root.WellFormed)
    (resolved : files.resolve? path = some names) (member : t ∈ walk files path names) :
    t.Below files path := by
  rw [walk] at member
  split at member
  · rename_i entries here
    exact below_of_mem_walkEntries formed resolved here
      (fun e _ => below_of_mem_walkEntry formed) member
  · cases member

end Ignore

namespace Command

/-! ## Targets -/

/-- A path that the command takes: a directory or a file of a supported language. -/
def Accepts (files : Files) (path : String) : Prop :=
  ∃ entry, files.entry? path = some entry ∧ (entry.isFile = true → (languageOf path).isSome = true)

/-- A path stands for a target. -/
def Reaches (files : Files) (path : String) (t : Target) : Prop :=
  ∃ found, targets files path = .ok found ∧ t ∈ found

variable {files : Files} {path : String} {paths : List String} {t : Target}

theorem Accepts.exists_targets (accepted : Accepts files path) :
    ∃ found, targets files path = .ok found := by
  obtain ⟨entry, found, supported⟩ := accepted
  obtain ⟨names, resolved, here⟩ := Option.bind_eq_some_iff.mp found
  cases entry with
  | file content root =>
      refine ⟨[⟨path, names⟩], ?_⟩
      simp only [targets, resolved, here, supported rfl, if_true]
  | directory entries =>
      refine ⟨(Ignore.walk files path names).filter fun t => (languageOf t.path).isSome, ?_⟩
      simp only [targets, resolved, here]

theorem Reaches.below (formed : files.root.WellFormed) (reached : Reaches files path t) :
    t.Below files path := by
  obtain ⟨found, listed, member⟩ := reached
  rw [targets] at listed
  split at listed
  · cases listed
  · rename_i names resolved
    split at listed
    · rename_i content root here
      split_ifs at listed
      cases listed
      rw [List.mem_singleton.mp member]
      exact ⟨.refl path, resolved, content, root, here⟩
    · cases listed
      exact Ignore.below_of_mem_walk formed resolved (List.mem_of_mem_filter member)

/-- Only files of supported languages are reached. -/
theorem Reaches.supported (reached : Reaches files path t) :
    (languageOf t.path).isSome = true := by
  obtain ⟨found, listed, member⟩ := reached
  rw [targets] at listed
  split at listed
  · cases listed
  · split at listed
    · split_ifs at listed with supported
      cases listed
      rw [List.mem_singleton.mp member]
      exact supported
    · cases listed
      exact (List.mem_filter.mp member).2

theorem exists_mapM_targets (accepted : ∀ path ∈ paths, Accepts files path) :
    ∃ lists, paths.mapM (targets files) = .ok lists ∧
      ∀ t, t ∈ lists.flatten ↔ ∃ path ∈ paths, Reaches files path t := by
  induction paths with
  | nil => exact ⟨[], rfl, by simp⟩
  | cons path paths ih =>
      obtain ⟨first, others⟩ := List.forall_mem_cons.mp accepted
      obtain ⟨found, listed⟩ := first.exists_targets
      obtain ⟨lists, all, reached⟩ := ih others
      refine ⟨found :: lists, ?_, ?_⟩
      · rw [List.mapM_cons, listed, all]
        rfl
      · intro t
        have here : t ∈ found ↔ Reaches files path t := by
          constructor
          · exact fun member => ⟨found, listed, member⟩
          · rintro ⟨found', listed', member⟩
            cases listed.symm.trans listed'
            exact member
        rw [List.flatten_cons, List.mem_append, List.exists_mem_cons_iff, here, reached]

/-! ## One spelling of each path -/

theorem mem_sortByPath {ts : List Target} : t ∈ sortByPath ts ↔ t ∈ ts :=
  List.mem_mergeSort

theorem pairwise_sortByPath (ts : List Target) :
    (sortByPath ts).Pairwise fun a b => ¬ Path.components b.path < Path.components a.path := by
  have sorted : (sortByPath ts).Pairwise fun a b =>
      (!decide (Path.components b.path < Path.components a.path)) = true := by
    apply List.pairwise_mergeSort
    · intro a b c
      simp only [Bool.not_eq_true', decide_eq_false_iff_not]
      exact Path.not_lt_trans
    · intro a b
      simp only [Bool.or_eq_true, Bool.not_eq_true', decide_eq_false_iff_not]
      exact List.le_total (Path.components a.path) (Path.components b.path)
  exact sorted.imp fun {a b} notBefore => by simpa using notBefore

/-- Where there is one spelling of each path, there is one order of the targets. -/
theorem sortByPath_eq {ts sorted : List Target}
    (unique : ∀ a ∈ ts, ∀ b ∈ ts, Path.components a.path = Path.components b.path → a = b)
    (order : sorted.Pairwise fun a b => ¬ Path.components b.path < Path.components a.path)
    (same : sorted.Perm ts) : sortByPath ts = sorted := by
  apply List.Perm.eq_of_pairwise _ (pairwise_sortByPath ts) order
    ((List.mergeSort_perm ..).trans same.symm)
  intro a b first second notAfter notBefore
  exact unique a (mem_sortByPath.mp first) b (same.mem_iff.mp second)
    (List.le_antisymm notAfter notBefore)

/-- Two targets whose paths have different components. -/
abbrev Apart (a b : Target) : Prop := Path.components a.path ≠ Path.components b.path

theorem eraseRepsBy_loop (a : Target) (ts kept : List Target) :
    List.eraseRepsBy.loop (fun a b => Path.components a.path = Path.components b.path) a ts kept =
      kept.reverse ++ ts.destutter' Apart a := by
  induction ts generalizing a kept with
  | nil => simp [List.eraseRepsBy.loop]
  | cons b ts ih =>
      rw [List.eraseRepsBy.loop, List.destutter'_cons]
      by_cases same : Path.components a.path = Path.components b.path
      · simp only [same, decide_true, Apart, ne_eq, not_true_eq_false, if_false]
        exact ih a kept
      · simp only [same, decide_false, Apart, ne_eq, not_false_eq_true, if_true, ih,
          List.reverse_cons, List.append_assoc, List.singleton_append]

/-- Targets are kept where their components change. -/
theorem dropRespelled_eq (ts : List Target) : dropRespelled ts = ts.destutter Apart := by
  cases ts with
  | nil => rfl
  | cons a ts => exact eraseRepsBy_loop a ts []

theorem dropRespelled_sublist (ts : List Target) : (dropRespelled ts).Sublist ts := by
  rw [dropRespelled_eq]
  exact List.destutter_sublist Apart ts

theorem mem_of_mem_dropRespelled {ts : List Target} (member : t ∈ dropRespelled ts) : t ∈ ts :=
  (dropRespelled_sublist ts).subset member

/-- No path is lost. -/
theorem components_mem_dropRespelled {ts : List Target} (member : t ∈ ts) :
    Path.components t.path ∈ (dropRespelled ts).map (Path.components ·.path) := by
  rw [dropRespelled_eq]
  cases ts with
  | nil => cases member
  | cons a ts =>
      rw [List.destutter_cons']
      induction ts generalizing a with
      | nil => exact List.mem_map_of_mem member
      | cons b ts ih =>
          rw [List.destutter'_cons]
          split_ifs with apart
          · rw [List.map_cons]
            rcases List.mem_cons.mp member with rfl | later
            · exact List.mem_cons_self
            · exact List.mem_cons_of_mem _ (ih b later)
          · have same : Path.components a.path = Path.components b.path := not_ne_iff.mp apart
            rcases List.mem_cons.mp member with rfl | later
            · exact List.mem_map_of_mem (List.mem_destutter' ts Apart _)
            · rcases List.mem_cons.mp later with rfl | later
              · rw [← same]
                exact List.mem_map_of_mem (List.mem_destutter' ts Apart _)
              · exact ih a (List.mem_cons_of_mem _ later)

/-- In sorted targets the spellings of one path stand side by side, so that to drop neighbours is
enough. -/
theorem nodup_dropRespelled {ts : List Target}
    (sorted : ts.Pairwise fun a b => ¬ Path.components b.path < Path.components a.path) :
    ((dropRespelled ts).map (Path.components ·.path)).Nodup := by
  have apart := ts.isChain_destutter Apart
  rw [← dropRespelled_eq] at apart
  have ascending : (dropRespelled ts).IsChain fun a b =>
      Path.components a.path < Path.components b.path := by
    have order := (sorted.sublist (dropRespelled_sublist ts)).isChain
    rw [List.isChain_iff_getElem] at apart order ⊢
    intro i bound
    by_contra notBefore
    exact apart i bound (List.le_antisymm (order i bound) notBefore)
  have keys : ((dropRespelled ts).map (Path.components ·.path)).IsChain (· < ·) :=
    (List.isChain_map _).mpr ascending
  refine keys.pairwise.imp ?_
  rintro _ _ less rfl
  exact List.lt_irrefl _ less

/-- Where there is one spelling of each path, all targets are kept. -/
theorem mem_dropRespelled {ts : List Target}
    (unique : ∀ a ∈ ts, ∀ b ∈ ts, Path.components a.path = Path.components b.path → a = b) :
    t ∈ dropRespelled ts ↔ t ∈ ts := by
  refine ⟨mem_of_mem_dropRespelled, fun member => ?_⟩
  obtain ⟨kept, inside, same⟩ := List.mem_map.mp (components_mem_dropRespelled member)
  rw [← unique kept (mem_of_mem_dropRespelled inside) t member same]
  exact inside

/-! ## The order of paths -/

/-- Measured files in the order of their paths. -/
def inOrder (measured : List MeasuredFile) : List MeasuredFile :=
  measured.mergeSort fun a b => !(b.path < a.path)

theorem mem_inOrder {measured : List MeasuredFile} {m : MeasuredFile} :
    m ∈ inOrder measured ↔ m ∈ measured :=
  List.mem_mergeSort

/-- Files with different paths are listed in strictly ascending order. -/
theorem pairwise_inOrder {measured : List MeasuredFile}
    (distinct : (measured.map (·.path)).Nodup) :
    (inOrder measured).Pairwise fun a b => a.path < b.path := by
  have sorted : (inOrder measured).Pairwise fun a b => (!decide (b.path < a.path)) = true := by
    apply List.pairwise_mergeSort
    · intro a b c
      simp only [Bool.not_eq_true', decide_eq_false_iff_not, String.not_lt]
      exact String.le_trans
    · intro a b
      simp only [Bool.or_eq_true, Bool.not_eq_true', decide_eq_false_iff_not, String.not_lt]
      exact String.le_total a.path b.path
  have apart : (inOrder measured).Pairwise fun a b => a.path ≠ b.path := by
    rw [← List.pairwise_map]
    exact ((List.mergeSort_perm ..).map _).nodup_iff.mpr distinct
  refine (sorted.and apart).imp ?_
  rintro a b ⟨least, other⟩
  simp only [Bool.not_eq_true', decide_eq_false_iff_not, String.not_lt] at least
  exact lt_of_le_of_ne least other

/-- The order depends only on which files there are. -/
theorem inOrder_eq {measured measured' : List MeasuredFile}
    (distinct : (measured.map (·.path)).Nodup) (distinct' : (measured'.map (·.path)).Nodup)
    (same : ∀ m, m ∈ measured ↔ m ∈ measured') : inOrder measured = inOrder measured' := by
  have asymmetric : Std.Antisymm fun a b : MeasuredFile => a.path < b.path :=
    ⟨fun a b before after => absurd after (String.lt_asymm before)⟩
  have irreflexive : Std.Irrefl fun a b : MeasuredFile => a.path < b.path :=
    ⟨fun a => String.lt_irrefl a.path⟩
  apply (pairwise_inOrder distinct).eq_of_mem_iff (pairwise_inOrder distinct')
  intro m
  rw [mem_inOrder, mem_inOrder, same]

/-! ## Measured files -/

theorem path_of_measureTarget {m : MeasuredFile} (measured : measureTarget files t = some m) :
    m.path = t.path := by
  rw [measureTarget] at measured
  split at measured
  · obtain ⟨text, -, measured⟩ := Option.bind_eq_some_iff.mp measured
    obtain ⟨symbols, -, measured⟩ := Option.bind_eq_some_iff.mp measured
    cases measured
    rfl
  · cases measured

/-- Whether a file can be measured does not depend on how its path is spelled. -/
theorem isSome_measureTarget {a b : Target} (same : a.names = b.names)
    (measured : (measureTarget files a).isSome = true) :
    (measureTarget files b).isSome = true := by
  rw [measureTarget, ← same]
  rw [measureTarget] at measured
  split at measured
  · obtain ⟨m, measured⟩ := Option.isSome_iff_exists.mp measured
    obtain ⟨text, readable, measured⟩ := Option.bind_eq_some_iff.mp measured
    obtain ⟨symbols, known, -⟩ := Option.bind_eq_some_iff.mp measured
    simp [readable, known]
  · cases measured

theorem map_path_sublist (files : Files) (ts : List Target) :
    ((ts.filterMap (measureTarget files)).map (·.path)).Sublist (ts.map (·.path)) := by
  induction ts with
  | nil => exact .slnil
  | cons t ts ih =>
      cases measured : measureTarget files t with
      | none =>
          rw [List.filterMap_cons_none measured]
          exact ih.cons t.path
      | some m =>
          rw [List.filterMap_cons_some measured, List.map_cons, path_of_measureTarget measured]
          exact ih.cons_cons t.path

/-- What is listed for some targets. -/
def listing (files : Files) (ts : List Target) : List MeasuredFile :=
  inOrder (ts.filterMap (measureTarget files))

theorem mem_listing {ts : List Target} {m : MeasuredFile} :
    m ∈ listing files ts ↔ ∃ t ∈ ts, measureTarget files t = some m := by
  rw [listing, mem_inOrder, List.mem_filterMap]

section

variable {ts : List Target} (distinct : (ts.map (Path.components ·.path)).Nodup)

include distinct

theorem nodup_path_filterMap : ((ts.filterMap (measureTarget files)).map (·.path)).Nodup := by
  have paths : ((ts.map (·.path)).map Path.components).Nodup := by
    rw [List.map_map]
    exact distinct
  exact (paths.of_map _).sublist (map_path_sublist files ts)

theorem pairwise_listing : (listing files ts).Pairwise fun a b => a.path < b.path :=
  pairwise_inOrder (nodup_path_filterMap distinct)

theorem nodup_components_listing (files : Files) :
    ((listing files ts).map (Path.components ·.path)).Nodup := by
  have fewer := (map_path_sublist files ts).map Path.components
  rw [List.map_map, List.map_map] at fewer
  exact ((List.mergeSort_perm ..).map _).nodup_iff.mpr (distinct.sublist fewer)

/-- A listing depends only on which targets there are. -/
theorem listing_eq {ts' : List Target} (distinct' : (ts'.map (Path.components ·.path)).Nodup)
    (same : ∀ t, t ∈ ts ↔ t ∈ ts') : listing files ts = listing files ts' := by
  apply inOrder_eq (nodup_path_filterMap distinct) (nodup_path_filterMap distinct')
  intro m
  simp only [List.mem_filterMap, same]

end

theorem measurePaths_eq (files : Files) (paths : List String) :
    measurePaths files paths = (collect files paths).map (listing files) := by
  rw [measurePaths]
  cases collect files paths <;> rfl

theorem collect_of_mapM {lists : List (List Target)}
    (all : paths.mapM (targets files) = .ok lists) :
    collect files paths = .ok (dropRespelled (sortByPath lists.flatten)) := by
  rw [collect, all]
  rfl

/-- A target that is reached alone is collected as it is spelled. -/
theorem collect_singleton (all : paths.mapM (targets files) = .ok [[t]]) :
    collect files paths = .ok [t] := by
  rw [collect_of_mapM all, List.flatten_singleton, sortByPath, List.mergeSort_singleton]
  rfl

theorem exists_collect (accepted : ∀ path ∈ paths, Accepts files path) :
    ∃ reached, collect files paths = .ok (dropRespelled reached) ∧
      ((dropRespelled reached).map (Path.components ·.path)).Nodup ∧
      ∀ t, t ∈ reached ↔ ∃ path ∈ paths, Reaches files path t := by
  obtain ⟨lists, all, reached⟩ := exists_mapM_targets accepted
  refine ⟨sortByPath lists.flatten, collect_of_mapM all,
    nodup_dropRespelled (pairwise_sortByPath _), ?_⟩
  intro t
  rw [mem_sortByPath, reached]

theorem reaches_of_mem_flatten {lists : List (List Target)}
    (all : paths.mapM (targets files) = .ok lists) (member : t ∈ lists.flatten) :
    ∃ path ∈ paths, Reaches files path t := by
  induction paths generalizing lists with
  | nil =>
      cases all
      cases member
  | cons path paths ih =>
      rw [List.mapM_cons] at all
      cases first : targets files path with
      | error failure =>
          rw [first] at all
          cases all
      | ok found =>
          rw [first] at all
          cases others : paths.mapM (targets files) with
          | error failure =>
              rw [others] at all
              cases all
          | ok rest =>
              rw [others] at all
              cases all
              rw [List.flatten_cons, List.mem_append] at member
              rw [List.exists_mem_cons_iff]
              exact member.imp (fun here => ⟨found, first, here⟩) (ih others)

/-- Whatever is collected is reached from an argument. -/
theorem reaches_of_mem_collect {ts : List Target} (collected : collect files paths = .ok ts)
    (member : t ∈ ts) : ∃ path ∈ paths, Reaches files path t := by
  cases all : paths.mapM (targets files) with
  | error failure =>
      rw [collect, all] at collected
      cases collected
  | ok lists =>
      cases collected.symm.trans (collect_of_mapM all)
      exact reaches_of_mem_flatten all (mem_sortByPath.mp (mem_of_mem_dropRespelled member))

/-! ## Arguments in any order -/

/-- Well-spelled arguments spell each path in one way. -/
theorem eq_of_reaches {a b : Target} (formed : files.root.WellFormed)
    (spelled : ∀ path ∈ paths, Path.WellSpelled path) (first : ∃ path ∈ paths, Reaches files path a)
    (second : ∃ path ∈ paths, Reaches files path b)
    (same : Path.components a.path = Path.components b.path) : a = b := by
  obtain ⟨path, argument, reached⟩ := first
  obtain ⟨path', argument', reached'⟩ := second
  have below := reached.below formed
  have below' := reached'.below formed
  have paths : a.path = b.path :=
    (below.onward.spelled (spelled path argument)).eq_of_components
      (below'.onward.spelled (spelled path' argument'))
      (Files.ne_empty_of_resolve? below.resolved) (Files.ne_empty_of_resolve? below'.resolved) same
  have names : some a.names = some b.names := by
    rw [← below.resolved, ← below'.resolved, paths]
  cases a
  cases b
  cases paths
  cases names
  rfl

/-- From well-spelled arguments all targets are collected. -/
theorem exists_collect_spelled (formed : files.root.WellFormed)
    (accepted : ∀ path ∈ paths, Accepts files path)
    (spelled : ∀ path ∈ paths, Path.WellSpelled path) :
    ∃ targets, collect files paths = .ok targets ∧
      (targets.map (Path.components ·.path)).Nodup ∧
      ∀ t, t ∈ targets ↔ ∃ path ∈ paths, Reaches files path t := by
  obtain ⟨reached, collected, distinct, all⟩ := exists_collect accepted
  refine ⟨dropRespelled reached, collected, distinct, ?_⟩
  intro t
  rw [mem_dropRespelled, all]
  intro a first b second
  exact eq_of_reaches formed spelled ((all a).mp first) ((all b).mp second)

/-- The command writes the same for well-spelled arguments in any order and however often each of
them is given. It collects the files that they reach, and lists what it measures of them in strictly
ascending order of the paths, in whatever order it measures them. -/
theorem analyze_independent_of_order (formed : files.root.WellFormed)
    (accepted : ∀ path ∈ paths, Accepts files path)
    (spelled : ∀ path ∈ paths, Path.WellSpelled path) :
    (∀ paths', (∀ path, path ∈ paths' ↔ path ∈ paths) → ∀ coloured format minimum,
      analyze files coloured paths' format none minimum =
        analyze files coloured paths format none minimum) ∧
    ∃ targets measured, collect files paths = .ok targets ∧
      (∀ t, t ∈ targets ↔ ∃ path ∈ paths, Reaches files path t) ∧
      measurePaths files paths = .ok measured ∧
      (∀ order, order.Perm targets → listing files order = measured) ∧
      ∀ minimum report, Report.build? measured minimum = some report →
        (report.files.map (·.path)).Pairwise (· < ·) := by
  obtain ⟨targets, collected, distinct, all⟩ := exists_collect_spelled formed accepted spelled
  have measured : measurePaths files paths = .ok (listing files targets) := by
    rw [measurePaths_eq, collected]
    rfl
  refine ⟨?_, targets, listing files targets, collected, all, measured, ?_, ?_⟩
  · intro paths' same coloured format minimum
    obtain ⟨targets', collected', distinct', all'⟩ := exists_collect_spelled formed
      (fun path argument => accepted path ((same path).mp argument))
      (fun path argument => spelled path ((same path).mp argument))
    have measured' : measurePaths files paths' = .ok (listing files targets) := by
      rw [measurePaths_eq, collected', listing_eq distinct distinct']
      · rfl
      · intro t
        simp only [all, all', same]
    rw [analyze, analyze, measured, measured']
  · intro order reordered
    refine listing_eq ((reordered.map _).nodup_iff.mpr distinct) distinct ?_
    exact fun t => reordered.mem_iff
  · intro minimum report built
    rw [Report.map_path_build? built, List.pairwise_map]
    exact pairwise_listing distinct

/-- A file with one function. -/
def functionFile : Entry :=
  .file (.text "def f():\n    pass\n") (some ⟨"module", true, ⟨0, 0⟩, ⟨2, 0⟩, [],
    [⟨"function_definition", true, ⟨0, 0⟩, ⟨1, 8⟩, [("name", 1), ("body", 4)],
      [⟨"def", false, ⟨0, 0⟩, ⟨0, 3⟩, [], []⟩, ⟨"identifier", true, ⟨0, 4⟩, ⟨0, 5⟩, [], []⟩,
        ⟨"parameters", true, ⟨0, 5⟩, ⟨0, 7⟩, [], []⟩, ⟨":", false, ⟨0, 7⟩, ⟨0, 8⟩, [], []⟩,
        ⟨"block", true, ⟨1, 4⟩, ⟨1, 8⟩, [], []⟩]⟩]⟩)

/-- A file below a directory, and one with a similar path beside it. -/
def similarFiles : Files :=
  ⟨((Entry.directory []).insert functionFile ["a", "b.py"]).insert functionFile ["a-b.py"], []⟩

theorem wellFormed_similarFiles : similarFiles.root.WellFormed := by
  have file : functionFile.WellFormed := .file ..
  have empty : Entry.WellFormed (.directory []) := .directory .nil nofun nofun
  exact (empty.insert (by decide) file).insert (by decide) file

theorem accepts_directory {entries : List (String × Entry)}
    (found : files.entry? path = some (.directory entries)) : Accepts files path :=
  ⟨_, found, nofun⟩

theorem analyze_independent_of_order_similar :
    (∀ path ∈ ["a-b.py", "a"], Accepts similarFiles path ∧ Path.WellSpelled path) ∧
    (∀ coloured format minimum,
      analyze similarFiles coloured ["a", "a-b.py", "a"] format none minimum =
        analyze similarFiles coloured ["a-b.py", "a"] format none minimum) ∧
    ∃ measured, measurePaths similarFiles ["a-b.py", "a"] = .ok measured ∧
      measured.map (·.path) = ["a-b.py", "a/b.py"] := by
  have accepted : ∀ path ∈ ["a-b.py", "a"], Accepts similarFiles path := by
    intro path member
    rcases List.mem_pair.mp member with rfl | rfl
    · exact ⟨functionFile, by rfl, fun _ => by decide⟩
    · exact accepts_directory (by rfl)
  have spelled : ∀ path ∈ ["a-b.py", "a"], Path.WellSpelled path := by decide
  obtain ⟨same, ts, measured, collected, -, listed, order, -⟩ :=
    analyze_independent_of_order wellFormed_similarFiles accepted spelled
  have reached : ["a-b.py", "a"].mapM (targets similarFiles) =
      .ok [[⟨"a-b.py", ["a-b.py"]⟩], [⟨"a/b.py", ["a", "b.py"]⟩]] := by rfl
  have sorted : sortByPath [⟨"a-b.py", ["a-b.py"]⟩, ⟨"a/b.py", ["a", "b.py"]⟩] =
      [⟨"a/b.py", ["a", "b.py"]⟩, ⟨"a-b.py", ["a-b.py"]⟩] :=
    sortByPath_eq (by decide) (by decide) (by decide)
  have both : collect similarFiles ["a-b.py", "a"] =
      .ok [⟨"a/b.py", ["a", "b.py"]⟩, ⟨"a-b.py", ["a-b.py"]⟩] := by
    rw [collect_of_mapM reached]
    simp only [List.flatten_cons, List.flatten_nil, List.cons_append, List.nil_append, sorted]
    rfl
  cases collected.symm.trans both
  refine ⟨fun path member => ⟨accepted path member, spelled path member⟩,
    same _ (by simp), measured, listed, ?_⟩
  rw [← order _ (.swap ..), listing, inOrder, List.mergeSort_of_pairwise]
  · rfl
  · decide

/-! ## Files under several paths -/

/-- Measured files are those that can be measured of the files that paths reach, with each path
spelled in one way. -/
structure Lists (files : Files) (paths : List String) (measured : List MeasuredFile) : Prop where
  origin : ∀ m ∈ measured, ∃ path ∈ paths, ∃ t, Reaches files path t ∧
    measureTarget files t = some m ∧ files.resolve? m.path = some t.names
  complete : ∀ path ∈ paths, ∀ t, Reaches files path t → (measureTarget files t).isSome = true →
    Path.components t.path ∈ measured.map (Path.components ·.path)
  distinct : (measured.map (Path.components ·.path)).Nodup

theorem lists_listing {reached : List Target} (formed : files.root.WellFormed)
    (distinct : ((dropRespelled reached).map (Path.components ·.path)).Nodup)
    (all : ∀ t, t ∈ reached ↔ ∃ path ∈ paths, Reaches files path t) :
    Lists files paths (listing files (dropRespelled reached)) := by
  refine ⟨?_, ?_, nodup_components_listing distinct files⟩
  · intro m listed
    obtain ⟨t, kept, measured⟩ := mem_listing.mp listed
    obtain ⟨path, argument, found⟩ := (all t).mp (mem_of_mem_dropRespelled kept)
    refine ⟨path, argument, t, found, measured, ?_⟩
    rw [path_of_measureTarget measured]
    exact (found.below formed).resolved
  · -- A target may have given way to another spelling of its path, which leads to the same file.
    intro path argument t found measured
    obtain ⟨kept, inside, same⟩ :=
      List.mem_map.mp (components_mem_dropRespelled ((all t).mpr ⟨path, argument, found⟩))
    obtain ⟨path', argument', found'⟩ := (all kept).mp (mem_of_mem_dropRespelled inside)
    have names : t.names = kept.names := Files.resolve?_of_components same.symm
      (found.below formed).resolved (found'.below formed).resolved
    obtain ⟨m, measured⟩ := Option.isSome_iff_exists.mp (isSome_measureTarget names measured)
    rw [← same, ← path_of_measureTarget measured]
    exact List.mem_map_of_mem (mem_listing.mpr ⟨kept, inside, measured⟩)

theorem Lists.exists_extends {measured : List MeasuredFile} {m : MeasuredFile}
    (lists : Lists files paths measured) (formed : files.root.WellFormed) (listed : m ∈ measured) :
    ∃ path ∈ paths, Path.Extends path m.path := by
  obtain ⟨path, argument, t, found, measured, -⟩ := lists.origin m listed
  rw [path_of_measureTarget measured]
  exact ⟨path, argument, (found.below formed).onward⟩

/-- How often a file is listed under paths without `..`: two such paths to one place have different
components only if they start differently. -/
theorem Lists.length_filter_le {measured : List MeasuredFile} (lists : Lists files paths measured)
    (formed : files.root.WellFormed) (direct : ∀ path ∈ paths, .parent ∉ Path.components path)
    (names : List String) :
    (measured.filter fun m => files.resolve? m.path = some names).length ≤
      (paths.map Path.start).dedup.length := by
  have direct' : ∀ m ∈ measured, .parent ∉ Path.components m.path := by
    intro m listed
    obtain ⟨path, argument, onward⟩ := lists.exists_extends formed listed
    exact onward.direct (direct path argument)
  have apart : ((measured.filter fun m => files.resolve? m.path = some names).map
      (Path.start ·.path)).Nodup := by
    have distinct := lists.distinct
    rw [List.Nodup, List.pairwise_map] at distinct ⊢
    refine (distinct.sublist List.filter_sublist).imp_of_mem ?_
    intro a b first second other same
    simp only [List.mem_filter, decide_eq_true_eq] at first second
    exact other (Files.components_eq_of_resolve? (direct' a first.1) (direct' b second.1) same
      first.2 second.2)
  have among : (measured.filter fun m => files.resolve? m.path = some names).map
      (Path.start ·.path) ⊆ (paths.map Path.start).dedup := by
    intro start member
    obtain ⟨m, listed, rfl⟩ := List.mem_map.mp member
    obtain ⟨path, argument, onward⟩ := lists.exists_extends formed (List.mem_of_mem_filter listed)
    rw [List.mem_dedup, onward.start]
    exact List.mem_map_of_mem argument
  have bound := (List.subperm_of_subset apart among).length_le
  rw [List.length_map] at bound
  exact bound

/-- How often the command lists a file: once for each path with components of its own by which its
arguments reach the file. If no argument has a `..`, then it is not listed more often than there are
different starts of arguments, and so at most once if all arguments start alike. -/
theorem listed_once_per_start (formed : files.root.WellFormed)
    (accepted : ∀ path ∈ paths, Accepts files path) :
    ∃ measured, measurePaths files paths = .ok measured ∧ Lists files paths measured ∧
      (∀ minimum report, Report.build? measured minimum = some report →
        report.files.map (·.path) = measured.map (·.path)) ∧
      ((∀ path ∈ paths, .parent ∉ Path.components path) → ∀ names,
        (measured.filter fun m => files.resolve? m.path = some names).length ≤
          (paths.map Path.start).dedup.length) := by
  obtain ⟨reached, collected, distinct, all⟩ := exists_collect accepted
  have lists := lists_listing formed distinct all
  refine ⟨listing files (dropRespelled reached), ?_, lists, ?_, ?_⟩
  · rw [measurePaths_eq, collected]
    rfl
  · exact fun minimum report => Report.map_path_build?
  · exact lists.length_filter_le formed

/-- Arguments that start differently list a file twice. -/
theorem listed_once_per_start_similar :
    (∀ path ∈ ["a", "./a/b.py", "."], Accepts similarFiles path ∧
      .parent ∉ Path.components path) ∧
    ∃ measured, measurePaths similarFiles ["a", "./a/b.py", "."] = .ok measured ∧
      (∀ names, (measured.filter fun m => similarFiles.resolve? m.path = some names).length ≤ 2) ∧
      (measured.filter fun m => similarFiles.resolve? m.path = some ["a", "b.py"]).length = 2 := by
  have accepted : ∀ path ∈ ["a", "./a/b.py", "."], Accepts similarFiles path := by
    intro path member
    simp only [List.mem_cons, List.not_mem_nil, or_false] at member
    rcases member with rfl | rfl | rfl
    · exact accepts_directory (by rfl)
    · exact ⟨functionFile, by rfl, fun _ => by decide⟩
    · exact accepts_directory (by rfl)
  have direct : ∀ path ∈ ["a", "./a/b.py", "."], .parent ∉ Path.components path := by decide
  obtain ⟨measured, listed, -, -, bound⟩ :=
    listed_once_per_start wellFormed_similarFiles accepted
  refine ⟨fun path member => ⟨accepted path member, direct path member⟩, measured, listed,
    bound direct, ?_⟩
  have reached : ["a", "./a/b.py", "."].mapM (targets similarFiles) =
      .ok [[⟨"a/b.py", ["a", "b.py"]⟩], [⟨"./a/b.py", ["a", "b.py"]⟩],
        [⟨"./a/b.py", ["a", "b.py"]⟩, ⟨"./a-b.py", ["a-b.py"]⟩]] := by rfl
  have sorted : sortByPath [⟨"a/b.py", ["a", "b.py"]⟩, ⟨"./a/b.py", ["a", "b.py"]⟩,
      ⟨"./a/b.py", ["a", "b.py"]⟩, ⟨"./a-b.py", ["a-b.py"]⟩] =
      [⟨"./a/b.py", ["a", "b.py"]⟩, ⟨"./a/b.py", ["a", "b.py"]⟩, ⟨"./a-b.py", ["a-b.py"]⟩,
        ⟨"a/b.py", ["a", "b.py"]⟩] :=
    sortByPath_eq (by decide) (by decide) (by decide)
  have three : collect similarFiles ["a", "./a/b.py", "."] = .ok [⟨"./a/b.py", ["a", "b.py"]⟩,
      ⟨"./a-b.py", ["a-b.py"]⟩, ⟨"a/b.py", ["a", "b.py"]⟩] := by
    rw [collect_of_mapM reached]
    simp only [List.flatten_cons, List.flatten_nil, List.cons_append, List.nil_append, sorted]
    rfl
  rw [measurePaths_eq, three] at listed
  cases listed
  rw [listing, inOrder, ((List.mergeSort_perm ..).filter _).length_eq]
  rfl

end Command

end FunctionMeter
