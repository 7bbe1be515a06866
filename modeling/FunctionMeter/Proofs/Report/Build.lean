import FunctionMeter.Proofs.Json.Decode
import FunctionMeter.Report.Basic
import Mathlib

/-!
# Building reports

A report shows every metric at or above the minimum, in order, and its summary counts what it shows.
The only thing that can go wrong is that a line has no number when lines are counted from one, and
the last line that a word can name is the only such line. It goes wrong for every metric on such a
line, also for those below the minimum.

A report from a higher minimum on is the same report with the functions below it left out. So the
functions of a file become fewer and stay in order, and the counts of the categories that are still
shown stay what they were.
-/

namespace FunctionMeter

namespace FunctionReport

theorem lineNumber?_eq_some {line number : UInt32} (counted : lineNumber? line = some number) :
    number.toNat = line.toNat + 1 := by
  rw [lineNumber?] at counted
  split at counted
  · rename_i small
    cases counted
    rw [UInt32.toNat_add]
    exact Nat.mod_eq_of_lt small
  · cases counted

theorem lineNumber?_eq_none {line : UInt32} (uncounted : lineNumber? line = none) :
    line.toNat + 1 = UInt32.size := by
  rw [lineNumber?] at uncounted
  split at uncounted
  · cases uncounted
  · have bound := line.toNat_lt_size
    omega

end FunctionReport

/-- The report of a function gives the lines of a range, counted from one. -/
structure Range.NumberedAs (r : Range) (f : FunctionReport) : Prop where
  start : f.line.toNat = r.start.line.toNat + 1
  stop : f.endLine.toNat = r.stop.line.toNat + 1

/-- What a report says of a metric. -/
structure Metric.ShownAs (m : Metric) (f : FunctionReport) : Prop where
  name : f.name = m.name
  numbered : m.range.NumberedAs f
  loc : f.loc = m.loc
  category : f.category = Category.ofLoc m.loc

namespace FunctionReport

theorem shownAs_of_ofMetric? {m : Metric} {f : FunctionReport} (shown : ofMetric? m = some f) :
    m.ShownAs f := by
  obtain ⟨line, first, shown⟩ := Option.bind_eq_some_iff.mp shown
  obtain ⟨endLine, last, shown⟩ := Option.bind_eq_some_iff.mp shown
  cases shown
  exact ⟨rfl, ⟨lineNumber?_eq_some first, lineNumber?_eq_some last⟩, rfl, rfl⟩

/-- A metric that starts or ends on the last line that a word can name. -/
def Uncountable (m : Metric) : Prop :=
  m.range.start.line.toNat + 1 = UInt32.size ∨ m.range.stop.line.toNat + 1 = UInt32.size

theorem uncountable_of_ofMetric? {m : Metric} (hidden : ofMetric? m = none) : Uncountable m := by
  cases first : lineNumber? m.range.start.line with
  | none => exact .inl (lineNumber?_eq_none first)
  | some line =>
      cases last : lineNumber? m.range.stop.line with
      | none => exact .inr (lineNumber?_eq_none last)
      | some endLine => simp [ofMetric?, first, last] at hidden

theorem not_uncountable_of_shownAs {m : Metric} {f : FunctionReport} (shown : m.ShownAs f) :
    ¬ Uncountable m := by
  have first := f.line.toNat_lt_size
  have last := f.endLine.toNat_lt_size
  rw [shown.numbered.start] at first
  rw [shown.numbered.stop] at last
  rintro (start | stop) <;> omega

theorem ofMetric?_eq_none_iff {m : Metric} : ofMetric? m = none ↔ Uncountable m := by
  refine ⟨uncountable_of_ofMetric?, fun uncountable => ?_⟩
  cases shown : ofMetric? m with
  | none => rfl
  | some f => exact absurd uncountable (not_uncountable_of_shownAs (shownAs_of_ofMetric? shown))

theorem mapM_ofMetric?_eq_none {metrics : List Metric} :
    metrics.mapM ofMetric? = none ↔ ∃ m ∈ metrics, Uncountable m := by
  simp only [mapM_eq_none_iff, ofMetric?_eq_none_iff]

theorem forall₂_shownAs {metrics : List Metric} {functions : List FunctionReport}
    (shown : metrics.mapM ofMetric? = some functions) :
    List.Forall₂ Metric.ShownAs metrics functions :=
  (mapM_eq_some_iff.mp shown).imp fun _ _ => shownAs_of_ofMetric?

/-- All metrics are shown in order, or one of them cannot be. -/
theorem mapM_ofMetric?_cases (metrics : List Metric) :
    (∃ functions, metrics.mapM ofMetric? = some functions ∧
      List.Forall₂ Metric.ShownAs metrics functions) ∨
      metrics.mapM ofMetric? = none ∧ ∃ m ∈ metrics, Uncountable m := by
  cases shown : metrics.mapM ofMetric? with
  | none => exact .inr ⟨rfl, mapM_ofMetric?_eq_none.mp shown⟩
  | some functions => exact .inl ⟨functions, rfl, forall₂_shownAs shown⟩

end FunctionReport

namespace Summary

/-- How many functions of a category a summary counts. -/
def count (s : Summary) : Category → Nat
  | .low => s.low
  | .medium => s.medium
  | .high => s.high

def ofFunctions (functions : List FunctionReport) : Summary :=
  functions.foldl (fun s f => s.record f.category) zero

theorem count_record (s : Summary) (c category : Category) :
    (s.record category).count c = s.count c + if category = c then 1 else 0 := by
  cases category <;> cases c <;> rfl

theorem count_foldl (functions : List FunctionReport) (s : Summary) (c : Category) :
    (functions.foldl (fun s f => s.record f.category) s).count c =
      s.count c + (functions.filter (·.category = c)).length := by
  induction functions generalizing s with
  | nil => rfl
  | cons f functions ih =>
      rw [List.foldl_cons, ih, count_record, List.filter_cons]
      by_cases same : f.category = c
      · simp [same]
        omega
      · simp [same]

/-- A summary counts the functions of each category. -/
theorem count_ofFunctions (functions : List FunctionReport) (c : Category) :
    (ofFunctions functions).count c = (functions.filter (·.category = c)).length := by
  rw [ofFunctions, count_foldl]
  cases c <;> exact Nat.zero_add _

/-- The numbers of a summary are right for a list of functions. -/
structure Tallies (s : Summary) (functions : List FunctionReport) : Prop where
  total : s.total = functions.length
  parts : s.total = s.low + s.medium + s.high
  each : ∀ c, s.count c = (functions.filter (·.category = c)).length

/-- The total goes up with each function, and with it one of the parts. -/
theorem total_foldl (functions : List FunctionReport) (s : Summary)
    (parts : s.total = s.low + s.medium + s.high) :
    let result := functions.foldl (fun s f => s.record f.category) s
    result.total = s.total + functions.length ∧
      result.total = result.low + result.medium + result.high := by
  induction functions generalizing s with
  | nil => exact ⟨rfl, parts⟩
  | cons f functions ih =>
      have one : (s.record f.category).total = s.total + 1 := by cases f.category <;> rfl
      have balanced : (s.record f.category).total = (s.record f.category).low +
          (s.record f.category).medium + (s.record f.category).high := by
        cases f.category <;> simp only [record] <;> omega
      obtain ⟨total, sum⟩ := ih (s.record f.category) balanced
      refine ⟨?_, sum⟩
      rw [List.foldl_cons, total, one, List.length_cons]
      omega

theorem tallies_ofFunctions (functions : List FunctionReport) :
    (ofFunctions functions).Tallies functions := by
  obtain ⟨total, parts⟩ := total_foldl functions zero rfl
  exact ⟨total.trans (Nat.zero_add _), parts, count_ofFunctions functions⟩

end Summary

namespace Category

variable {minimum higher c : Category}

theorem atLeast_low (c : Category) : atLeast .low c = true :=
  decide_eq_true (Nat.zero_le c.rank)

theorem atLeast_of_higher (raised : minimum.rank ≤ higher.rank) (shown : atLeast higher c = true) :
    atLeast minimum c = true :=
  decide_eq_true (raised.trans (of_decide_eq_true shown))

end Category

/-! ## Files -/

/-- What a report from a minimum on says of a measured file: all its metrics at or above the
minimum, in order. -/
structure MeasuredFile.ListedAs (minimum : Category) (file : MeasuredFile) (report : FileReport) :
    Prop where
  path : report.path = file.path
  language : report.language = file.language
  functions : List.Forall₂ Metric.ShownAs
    (file.metrics.filter fun m => Category.atLeast minimum (Category.ofLoc m.loc)) report.functions

namespace FileReport

/-- The report of a file without the functions below a minimum. -/
def above (minimum : Category) (report : FileReport) : FileReport :=
  { report with functions := report.functions.filter fun f => Category.atLeast minimum f.category }

/-- The report of a file is part of another one. -/
structure PartOf (smaller larger : FileReport) : Prop where
  path : smaller.path = larger.path
  language : smaller.language = larger.language
  functions : smaller.functions.Sublist larger.functions

theorem partOf_above (minimum : Category) (report : FileReport) :
    (report.above minimum).PartOf report :=
  ⟨rfl, rfl, List.filter_sublist⟩

end FileReport

namespace Report

variable {minimum higher : Category} {file : MeasuredFile} {files : List MeasuredFile}

/-- The report that lists some files. -/
def ofFiles (files : List FileReport) : Report :=
  ⟨files, .ofFunctions (files.flatMap (·.functions))⟩

theorem reportFile?_eq (minimum : Category) (file : MeasuredFile) :
    reportFile? minimum file = (file.metrics.mapM FunctionReport.ofMetric?).map fun functions =>
      FileReport.above minimum ⟨file.path, file.language, functions⟩ := by
  rw [reportFile?, Option.map_eq_bind]
  rfl

theorem build?_eq (files : List MeasuredFile) (minimum : Category) :
    build? files minimum = (files.mapM (reportFile? minimum)).map ofFiles := by
  rw [build?, Option.map_eq_bind]
  rfl

theorem reportFile?_eq_none :
    reportFile? minimum file = none ↔ ∃ m ∈ file.metrics, FunctionReport.Uncountable m := by
  rw [reportFile?_eq, Option.map_eq_none_iff, FunctionReport.mapM_ofMetric?_eq_none]

theorem listedAs_of_reportFile? {report : FileReport}
    (listed : reportFile? minimum file = some report) : file.ListedAs minimum report := by
  rw [reportFile?_eq] at listed
  obtain ⟨functions, shown, rfl⟩ := Option.map_eq_some_iff.mp listed
  refine ⟨rfl, rfl, List.rel_filter ?_ (FunctionReport.forall₂_shownAs shown)⟩
  intro m f same
  show Category.atLeast minimum (Category.ofLoc m.loc) = true ↔
    Category.atLeast minimum f.category = true
  rw [same.category]

/-- A report lists the measured files in their order. -/
theorem map_path_build? {report : Report} (built : build? files minimum = some report) :
    report.files.map (·.path) = files.map (·.path) := by
  rw [build?_eq] at built
  obtain ⟨reports, listed, rfl⟩ := Option.map_eq_some_iff.mp built
  have paths : List.Forall₂ (· = ·) (files.map (·.path)) (reports.map (·.path)) := by
    rw [List.forall₂_map_left_iff, List.forall₂_map_right_iff]
    refine (mapM_eq_some_iff.mp listed).imp ?_
    intro file report shown
    exact (listedAs_of_reportFile? shown).path.symm
  rw [List.forall₂_eq_eq_eq] at paths
  exact paths.symm

/-- The report of a file from a higher minimum on leaves out what is below it. -/
theorem reportFile?_raised (raised : minimum.rank ≤ higher.rank) {report : FileReport}
    (listed : reportFile? minimum file = some report) :
    reportFile? higher file = some (report.above higher) := by
  rw [reportFile?_eq] at listed ⊢
  obtain ⟨functions, shown, rfl⟩ := Option.map_eq_some_iff.mp listed
  have twice : (functions.filter fun f => Category.atLeast minimum f.category).filter
      (fun f => Category.atLeast higher f.category) =
        functions.filter fun f => Category.atLeast higher f.category := by
    rw [List.filter_filter]
    refine List.filter_congr fun f _ => ?_
    cases kept : Category.atLeast higher f.category with
    | false => rfl
    | true => rw [Category.atLeast_of_higher raised kept, Bool.and_true]
  rw [shown, Option.map_some, FileReport.above, FileReport.above, FileReport.above, twice]

/-- The counts of the categories that are still shown stay what they were. -/
theorem count_above (files : List FileReport) {c : Category} (kept : higher.rank ≤ c.rank) :
    (ofFiles (files.map (FileReport.above higher))).summary.count c =
      (ofFiles files).summary.count c := by
  have still (functions : List FunctionReport) :
      (functions.filter fun f => Category.atLeast higher f.category).filter (·.category = c) =
        functions.filter (·.category = c) := by
    rw [List.filter_filter]
    refine List.filter_congr fun f _ => ?_
    by_cases same : f.category = c
    · have shown : Category.atLeast higher f.category = true := by
        rw [same]
        exact decide_eq_true kept
      rw [shown, Bool.and_true]
    · simp [same]
  rw [ofFiles, ofFiles, Summary.count_ofFunctions, Summary.count_ofFunctions, List.flatMap_map,
    List.filter_flatMap, List.filter_flatMap]
  simp only [FileReport.above, still]

/-- What a report of measured files shows. It cannot be built exactly if a metric of some file,
shown or not, is on the last line that a word can name. Otherwise it lists all files in order, with
their metrics at or above the minimum, and its summary counts them. From a higher minimum on, the
report of each file is part of the one before, and the categories that are still shown keep their
counts. -/
theorem build?_lists (files : List MeasuredFile) (minimum : Category) :
    (build? files minimum = none ↔
      ∃ file ∈ files, ∃ m ∈ file.metrics, FunctionReport.Uncountable m) ∧
    ∀ report, build? files minimum = some report →
      List.Forall₂ (MeasuredFile.ListedAs minimum) files report.files ∧
      report.summary.Tallies (report.files.flatMap (·.functions)) ∧
      ∀ higher : Category, minimum.rank ≤ higher.rank →
        ∃ raised, build? files higher = some raised ∧
          List.Forall₂ FileReport.PartOf raised.files report.files ∧
          ∀ c : Category, higher.rank ≤ c.rank →
            raised.summary.count c = report.summary.count c := by
  constructor
  · simp only [build?_eq, Option.map_eq_none_iff, mapM_eq_none_iff, reportFile?_eq_none]
  · intro report built
    rw [build?_eq] at built
    obtain ⟨reports, listed, rfl⟩ := Option.map_eq_some_iff.mp built
    have each := mapM_eq_some_iff.mp listed
    refine ⟨each.imp fun _ _ => listedAs_of_reportFile?, Summary.tallies_ofFunctions _, ?_⟩
    intro higher raised
    have narrowed : files.mapM (reportFile? higher) =
        some (reports.map (FileReport.above higher)) := by
      rw [mapM_eq_some_iff, List.forall₂_map_right_iff]
      exact each.imp fun _ _ => reportFile?_raised raised
    refine ⟨ofFiles (reports.map (FileReport.above higher)), ?_, ?_, ?_⟩
    · rw [build?_eq, narrowed, Option.map_some]
    · show List.Forall₂ FileReport.PartOf (reports.map (FileReport.above higher)) reports
      rw [List.forall₂_map_left_iff, List.forall₂_same]
      exact fun report _ => FileReport.partOf_above higher report
    · intro c kept
      exact count_above reports kept

end Report

/-- The report of one file from the lowest category on shows all its metrics. -/
theorem Report.build?_singleton (file : MeasuredFile) :
    build? [file] .low = (file.metrics.mapM FunctionReport.ofMetric?).map fun functions =>
      ⟨[⟨file.path, file.language, functions⟩], .ofFunctions functions⟩ := by
  cases shown : file.metrics.mapM FunctionReport.ofMetric? with
  | none => simp [build?, reportFile?, shown]
  | some functions =>
      simp [build?, reportFile?, shown, Category.atLeast_low, Summary.ofFunctions]

end FunctionMeter
