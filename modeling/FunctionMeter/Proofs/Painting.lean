import FunctionMeter.Decoration
import Mathlib

/-!
# Decorations of metrics

Every metric of a document goes to one of three lists of ranges, by its category, and to the list of
labels. The two are switched on and off on their own, and a document without metrics is cleared
whatever the switches say. The metrics are added one by one; what one step adds to the ranges of a
category tells what all steps together do.

That nothing is lost, doubled or moved is said with places: the ranges of a category are those of
the metrics at certain places, and these are all places of metrics of this category, in ascending
order. The places tell two metrics with the same range apart.
-/

namespace FunctionMeter

/-- What is to be highlighted; nothing in a cleared document. -/
def Decorations.highlights : Decorations → Highlights
  | .clear => .empty
  | .paint highlights _ => highlights

namespace Highlights

variable {metrics : List Metric} {c : Category}

/-- The ranges to highlight for a category. -/
def ranges (h : Highlights) : Category → List Range
  | .low => h.low
  | .medium => h.medium
  | .high => h.high

/-- The places are those of all metrics of a category in ascending order, and the ranges are the
ranges of these metrics. -/
structure Gathers (metrics : List Metric) (c : Category) (places : List Nat)
    (ranges : List Range) : Prop where
  ascending : places.Pairwise (· < ·)
  complete : ∀ i, i ∈ places ↔ ∃ m, metrics[i]? = some m ∧ Category.ofLoc m.loc = c
  ranges : List.Forall₂ (fun i range => ∃ m, metrics[i]? = some m ∧ m.range = range) places ranges

/-- Every metric is in the list of its category and in no other. -/
structure Partitions (h : Highlights) (metrics : List Metric) : Prop where
  gathers : ∀ c, ∃ places, Gathers metrics c places (h.ranges c)
  total : h.low.length + h.medium.length + h.high.length = metrics.length

theorem ranges_push (h : Highlights) (category : Category) (range : Range) (c : Category) :
    (h.push category range).ranges c = h.ranges c ++ if category = c then [range] else [] := by
  cases category <;> cases c <;> simp [push, ranges]

theorem ranges_empty (c : Category) : empty.ranges c = [] := by
  cases c <;> rfl

/-- The metrics of a category with their places. -/
def placed (metrics : List Metric) (c : Category) : List (Metric × Nat) :=
  metrics.zipIdx.filter fun p => Category.ofLoc p.1.loc = c

theorem mem_placed {p : Metric × Nat} :
    p ∈ placed metrics c ↔ metrics[p.2]? = some p.1 ∧ Category.ofLoc p.1.loc = c := by
  rw [placed, List.mem_filter, List.mem_zipIdx_iff_getElem?, decide_eq_true_eq]

theorem map_range_placed (metrics : List Metric) (c : Category) :
    (placed metrics c).map (·.1.range) =
      (metrics.filter fun m => Category.ofLoc m.loc = c).map (·.range) := by
  have metricsOf : (placed metrics c).map (·.1) =
      metrics.filter fun m => Category.ofLoc m.loc = c := by
    conv_rhs => rw [← List.zipIdx_map_fst 0 metrics, List.filter_map]
    rfl
  rw [← metricsOf, List.map_map]
  rfl

theorem gathers_placed (metrics : List Metric) (c : Category) :
    Gathers metrics c ((placed metrics c).map (·.2)) ((placed metrics c).map (·.1.range)) := by
  refine ⟨?_, ?_, ?_⟩
  · have all : (metrics.zipIdx.map (·.2)).Pairwise (· < ·) := by
      rw [List.zipIdx_map_snd]
      exact List.pairwise_lt_range'
    exact all.sublist (List.filter_sublist.map _)
  · intro i
    rw [List.mem_map]
    constructor
    · rintro ⟨⟨m, i⟩, member, rfl⟩
      exact ⟨m, mem_placed.mp member⟩
    · rintro ⟨m, found⟩
      exact ⟨(m, i), mem_placed.mpr found, rfl⟩
  · rw [List.forall₂_map_left_iff, List.forall₂_map_right_iff, List.forall₂_same]
    intro p member
    exact ⟨p.1, (mem_placed.mp member).1, rfl⟩

/-- The metrics of the three categories are all metrics. -/
theorem length_filter_ofLoc (metrics : List Metric) :
    (metrics.filter fun m => Category.ofLoc m.loc = .low).length +
      (metrics.filter fun m => Category.ofLoc m.loc = .medium).length +
      (metrics.filter fun m => Category.ofLoc m.loc = .high).length = metrics.length := by
  induction metrics with
  | nil => rfl
  | cons m metrics ih =>
      cases own : Category.ofLoc m.loc <;>
        simp only [List.filter_cons, own, decide_true, decide_false, reduceCtorEq, if_true,
          Bool.false_eq_true, if_false, List.length_cons] <;> omega

/-- It is enough that the ranges of each category are those of its metrics in order. -/
theorem partitions_of_ranges {h : Highlights}
    (each : ∀ c, h.ranges c = (metrics.filter fun m => Category.ofLoc m.loc = c).map (·.range)) :
    h.Partitions metrics := by
  constructor
  · intro c
    rw [each, ← map_range_placed]
    exact ⟨_, gathers_placed metrics c⟩
  · have low : h.low = _ := each .low
    have medium : h.medium = _ := each .medium
    have high : h.high = _ := each .high
    rw [low, medium, high, List.length_map, List.length_map, List.length_map,
      length_filter_ofLoc]

end Highlights

/-- A label stands behind the signature of a function and tells its size. -/
structure Label.Describes (config : Config) (m : Metric) (l : Label) : Prop where
  position : l.position = m.signaturePosition
  loc : l.loc = m.loc
  text : l.text = config.label m.loc
  category : l.category = Category.ofLoc m.loc
  colour : l.colour = config.colours.ofCategory (Category.ofLoc m.loc)

namespace Decorations

variable {config : Config} {metrics : List Metric}

/-- Decorations show metrics by their highlights and by their labels, each if it is wanted. -/
structure Paints (config : Config) (metrics : List Metric) (d : Decorations) : Prop where
  highlighted : config.display.highlight = true → d.highlights.Partitions metrics
  plain : config.display.highlight = false → ∀ c, d.highlights.ranges c = []
  labelled : config.display.labels = true → List.Forall₂ (Label.Describes config) metrics d.labels
  unlabelled : config.display.labels = false → d.labels = []

/-- One step of the loop: a metric is added to the ranges of its category. -/
theorem ranges_addMetric (painted : Highlights × List Label) (m : Metric) (c : Category) :
    (addMetric config painted m).1.ranges c = painted.1.ranges c ++
      if config.display.highlight = true ∧ Category.ofLoc m.loc = c then [m.range] else [] := by
  by_cases wanted : config.display.highlight = true
  · simp [addMetric, wanted, Highlights.ranges_push]
  · simp [addMetric, wanted]

/-- The whole loop goes through the metrics in order. -/
theorem ranges_foldl (config : Config) (metrics : List Metric) (painted : Highlights × List Label)
    (c : Category) :
    (metrics.foldl (addMetric config) painted).1.ranges c = painted.1.ranges c ++
      (metrics.filter fun m => config.display.highlight = true ∧ Category.ofLoc m.loc = c).map
        (·.range) := by
  induction metrics generalizing painted with
  | nil => simp
  | cons m metrics ih =>
      rw [List.foldl_cons, ih, ranges_addMetric, List.filter_cons, List.append_assoc]
      congr 1
      simp only [decide_eq_true_eq]
      split <;> rfl

theorem labels_foldl (config : Config) (metrics : List Metric)
    (painted : Highlights × List Label) :
    (metrics.foldl (addMetric config) painted).2 = painted.2 ++
      if config.display.labels then metrics.map (Label.ofMetric config) else [] := by
  induction metrics generalizing painted with
  | nil => simp
  | cons m metrics ih =>
      rw [List.foldl_cons, ih]
      by_cases wanted : config.display.labels = true
      · simp [addMetric, wanted]
      · simp [addMetric, wanted]

theorem ranges_ofMetrics (config : Config) (metrics : List Metric) (c : Category) :
    (ofMetrics config metrics).highlights.ranges c =
      (metrics.filter fun m => config.display.highlight = true ∧ Category.ofLoc m.loc = c).map
        (·.range) := by
  cases metrics with
  | nil => exact Highlights.ranges_empty c
  | cons m metrics =>
      have all := ranges_foldl config (m :: metrics) (.empty, []) c
      rwa [Highlights.ranges_empty, List.nil_append] at all

theorem labels_ofMetrics (config : Config) (metrics : List Metric) :
    (ofMetrics config metrics).labels =
      if config.display.labels then metrics.map (Label.ofMetric config) else [] := by
  cases metrics with
  | nil => simp [ofMetrics, labels]
  | cons m metrics =>
      have all := labels_foldl config (m :: metrics) (.empty, [])
      rwa [List.nil_append] at all

theorem ofMetrics_eq_clear : ofMetrics config metrics = .clear ↔ metrics = [] := by
  cases metrics with
  | nil => exact ⟨fun _ => rfl, fun _ => rfl⟩
  | cons m metrics => exact ⟨nofun, nofun⟩

theorem describes_map_ofMetric (config : Config) (metrics : List Metric) :
    List.Forall₂ (Label.Describes config) metrics (metrics.map (Label.ofMetric config)) := by
  rw [List.forall₂_map_right_iff, List.forall₂_same]
  intro m _
  exact ⟨rfl, rfl, rfl, rfl, rfl⟩

/-- A document is cleared exactly if it has no metrics. If highlights are wanted, every metric is in
the list of its category and in no other, in order; and if labels are wanted, there is one for each
metric, in order. What is not wanted is empty. -/
theorem ofMetrics_clears_or_paints (config : Config) (metrics : List Metric) :
    (ofMetrics config metrics = .clear ↔ metrics = []) ∧
      Paints config metrics (ofMetrics config metrics) := by
  refine ⟨ofMetrics_eq_clear, ?_, ?_, ?_, ?_⟩
  · intro wanted
    apply Highlights.partitions_of_ranges
    intro c
    simp only [ranges_ofMetrics, wanted, true_and]
  · intro unwanted c
    simp [ranges_ofMetrics, unwanted]
  · intro wanted
    rw [labels_ofMetrics, if_pos wanted]
    exact describes_map_ofMetric config metrics
  · intro unwanted
    simp [labels_ofMetrics, unwanted]

end Decorations

end FunctionMeter
