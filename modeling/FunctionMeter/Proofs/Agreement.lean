import FunctionMeter.Proofs.Collect
import FunctionMeter.Proofs.Metric
import FunctionMeter.Proofs.Painting
import FunctionMeter.Proofs.Report.Build
import FunctionMeter.Proofs.Session.Fresh
import FunctionMeter.Proofs.Tree.Span
import Mathlib

/-!
# The command and the editor agree

A file is measured by the `analyze` command, and the same text is measured in a session when an
editor has opened it. The two go different ways: the command resolves a path, names a document by
it and builds a report; a session keeps its own document and turns metrics into decorations. Where
the language and the syntax tree are the same, both have the same metrics, and what the report says
of each function is what the editor is told to draw.
-/

namespace FunctionMeter

/-! ## Reports and decorations of the same metrics -/

/-- A label notes the size that a report gives a function. -/
structure Label.Notes (l : Label) (f : FunctionReport) : Prop where
  loc : l.loc = f.loc
  category : l.category = f.category

namespace Decorations

/-- Decorations show the functions of a report: a label for each function in order, the ranges of
each category in order and in the number that the summary counts, and nothing for no functions. -/
structure Shows (d : Decorations) (functions : List FunctionReport) (summary : Summary) : Prop where
  labels : List.Forall₂ Label.Notes d.labels functions
  ranges : ∀ c, List.Forall₂ Range.NumberedAs (d.highlights.ranges c)
    (functions.filter (·.category = c))
  counts : ∀ c, (d.highlights.ranges c).length = summary.count c
  clear : d = .clear ↔ functions = []

section

variable {config : Config} {metrics : List Metric}

theorem shows_ofMetrics {functions : List FunctionReport}
    (labels : config.display.labels = true) (highlight : config.display.highlight = true)
    (shown : List.Forall₂ Metric.ShownAs metrics functions) :
    (ofMetrics config metrics).Shows functions (.ofFunctions functions) := by
  have ranges (c : Category) : List.Forall₂ Range.NumberedAs
      ((ofMetrics config metrics).highlights.ranges c) (functions.filter (·.category = c)) := by
    have sameCategory : ∀ m f, Metric.ShownAs m f →
        (decide (Category.ofLoc m.loc = c) ↔ decide (f.category = c)) := by
      intro m f shown
      rw [shown.category]
    simp only [ranges_ofMetrics, highlight, true_and]
    rw [List.forall₂_map_left_iff]
    exact (List.rel_filter sameCategory shown).imp fun m f shown => shown.numbered
  refine ⟨?_, ranges, ?_, ?_⟩
  · rw [labels_ofMetrics, if_pos labels, List.forall₂_map_left_iff]
    exact shown.imp fun m f shown => ⟨shown.loc.symm, shown.category.symm⟩
  · intro c
    rw [(ranges c).length_eq, Summary.count_ofFunctions]
  · rw [ofMetrics_eq_clear, ← List.length_eq_zero_iff, shown.length_eq, List.length_eq_zero_iff]

end

end Decorations

/-! ## The two ways to measure -/

/-- A path leads to a source file with a text and a syntax tree. -/
def Files.Holds (files : Files) (path text : String) (root : Node) : Prop :=
  ∃ names content, files.resolve? path = some names ∧
    files.root.at? names = some (.file content (some root)) ∧ content.text? = some text

/-- A document has a text in a language, and a provider takes its symbols from a syntax tree. -/
structure Provider.Parses (provider : Provider) (d : Document) (language : Language)
    (text : String) (root : Node) : Prop where
  text : d.text = text
  language : d.language? = some language
  symbols : provider.symbols d = .ok (d.symbols? root)

namespace Source

/-- The functions of a text with a syntax tree. -/
def metrics (language : Language) (text : String) (root : Node) : List Metric :=
  let lines := (Text.lines text.toList).map String.ofList
  Metric.ofSymbols lines ((⟨language, text.toList, lines⟩ : Source).symbols root)

theorem metrics_eq (language : Language) (d : Document) (root : Node) :
    Metric.ofSymbols d.lines ((ofDocument language d).symbols root) =
      metrics language d.text root := rfl

/-- Every symbol of a tree has the range of a node. -/
theorem exists_node_of_mem {source : Source} {root : Node} {s : Symbol}
    (member : s ∈ Symbol.preorderAll (source.symbols root)) :
    ∃ node : Node, node.Below root ∧
      s.fullRange = ⟨source.position node.start, source.position node.stop⟩ := by
  obtain ⟨node, below, role, surrounding, -, stands⟩ := exists_standsFor member
  exact ⟨node, below, congrArg Symbol.fullRange stands⟩

/-- In a text of fewer lines than there are words, all lines of a well-formed tree can be
numbered. -/
theorem not_uncountable_of_mem_metrics {language : Language} {text : String} {root : Node}
    (formed : root.isWellFormed (Text.rawLines text.toList) = true)
    (short : (Text.rawLines text.toList).length < UInt32.size) :
    ∀ m ∈ metrics language text root, ¬ FunctionReport.Uncountable m := by
  have numbered {lines : List String} {p : Point}
      (boundary : p.isBoundary (Text.rawLines text.toList) = true) :
      (Document.position lines p).line.toNat + 1 ≠ UInt32.size := by
    obtain ⟨word, -, before, after, found, -⟩ := Point.exists_of_isBoundary boundary
    have inside := (List.getElem?_eq_some_iff.mp found).1
    have same : (Document.position lines p).line.toNat = p.row := UInt32.toNat_ofNat_of_lt' word
    omega
  refine Metric.forall_ofSymbols ?_
  intro s member
  obtain ⟨node, below, range⟩ := exists_node_of_mem member
  simp only [FunctionReport.Uncountable, Metric.ofSymbol, range, not_or]
  exact ⟨numbered (below.holds_start formed).boundary,
    numbered (below.holds_stop formed).boundary⟩

end Source

theorem Provider.measure_of_parses {provider : Provider} {d : Document} {language : Language}
    {text : String} {root : Node} (parses : provider.Parses d language text root) :
    provider.measure d = Source.metrics language text root := by
  simp only [measure, parses.symbols, Document.symbols?, parses.language, Option.map_some]
  rw [Source.metrics_eq, parses.text]

namespace Command

variable {files : Files} {path text : String} {root : Node} {language : Language}

theorem measurePaths_singleton (holds : files.Holds path text root)
    (supported : languageOf path = some language) :
    measurePaths files [path] =
      .ok [⟨path, some language.name, Source.metrics language text root⟩] := by
  obtain ⟨names, content, resolved, file, readable⟩ := holds
  have recognised : (document names text).language? = some language :=
    language?_document resolved file supported
  have target : targets files path = .ok [⟨path, names⟩] := by
    simp only [targets, resolved, file, supported, Option.isSome_some, if_true]
  have measured : measureTarget files ⟨path, names⟩ =
      some ⟨path, some language.name, Source.metrics language text root⟩ := by
    simp only [measureTarget, file, readable, Document.symbols?, recognised, supported,
      Option.map_some, Option.bind_eq_bind, Option.bind_some, Source.metrics_eq]
    rfl
  have found : collect files [path] = .ok [⟨path, names⟩] := by
    apply collect_singleton
    rw [List.mapM_cons, List.mapM_nil, target]
    rfl
  simp [measurePaths, found, measured, bind, Except.bind]

/-- Asked for one path from the lowest category on, the command writes a report in every format. -/
def Reports (files : Files) (path : String) (report : Report) : Prop :=
  ∀ coloured format,
    analyze files coloured [path] format none .low = .ok (report.render coloured format)

/-- Asked for one path from the lowest category on, the command fails to number lines. -/
def Overflows (files : Files) (path : String) : Prop :=
  ∀ coloured format, analyze files coloured [path] format none .low = .error .overflow

/-- The command reports all functions of a file, unless it cannot number their lines. -/
theorem reports_or_overflows (holds : files.Holds path text root)
    (supported : languageOf path = some language) :
    (∃ functions, List.Forall₂ Metric.ShownAs (Source.metrics language text root) functions ∧
      Reports files path ⟨[⟨path, some language.name, functions⟩], .ofFunctions functions⟩) ∨
      Overflows files path ∧
        ∃ m ∈ Source.metrics language text root, FunctionReport.Uncountable m := by
  have build := Report.build?_singleton
    ⟨path, some language.name, Source.metrics language text root⟩
  have measured := measurePaths_singleton holds supported
  rcases FunctionReport.mapM_ofMetric?_cases (Source.metrics language text root) with
    ⟨functions, all, shown⟩ | ⟨none, uncountable⟩
  · rw [all, Option.map_some] at build
    refine .inl ⟨functions, shown, fun coloured format => ?_⟩
    simp only [analyze, measured, bind, Except.bind, build]
  · rw [none, Option.map_none] at build
    refine .inr ⟨fun coloured format => ?_, uncountable⟩
    simp only [analyze, measured, bind, Except.bind, build]

end Command

/-! ## Agreement -/

namespace Session

/-- What a session publishes for a document is what its text gives. -/
theorem Reached.decorations_of_published {s : Session} {m : Move} {uri : Uri} {d : Document}
    {notice : DecorationNotice} (reached : Reached s) (stored : s.store.get? uri = some d)
    (published : (s.move m).notices uri = s.notices uri ++ [notice]) :
    notice.decorations = Decorations.ofMetrics s.config (s.provider.measure d) := by
  rcases reached.fresh.notices_move m uri with silent | ⟨d', stored', -, announced⟩
  · rw [silent] at published
    simp at published
  · obtain rfl := Option.some.inj (stored.symm.trans stored')
    rw [announced, List.append_cancel_left_eq, List.singleton_inj] at published
    rw [← published]

end Session

/-- The command reports on a source file what a session publishes for a document with the same text
in the same language and with the same syntax tree, if labels and highlights are wanted. It fails
only for a function on the last line that a word can name, and there is no such function in a tree
that fits a text with fewer lines than there are words. -/
theorem analyze_agrees_with_session {files : Files} {path text : String} {root : Node}
    {language : Language} (holds : files.Holds path text root)
    (supported : Command.languageOf path = some language)
    {s : Session} {m : Session.Move} {uri : Uri} {d : Document} {notice : DecorationNotice}
    (reached : Session.Reached s) (stored : s.store.get? uri = some d)
    (parses : s.provider.Parses d language text root)
    (labels : s.config.display.labels = true) (highlight : s.config.display.highlight = true)
    (published : (s.move m).notices uri = s.notices uri ++ [notice]) :
    ((∃ functions summary,
      Command.Reports files path ⟨[⟨path, some language.name, functions⟩], summary⟩ ∧
        notice.decorations.Shows functions summary) ∨
      Command.Overflows files path ∧ ∃ m ∈ s.provider.measure d, FunctionReport.Uncountable m) ∧
      (root.isWellFormed (Text.rawLines text.toList) = true →
        (Text.rawLines text.toList).length < UInt32.size →
        ∀ m ∈ s.provider.measure d, ¬ FunctionReport.Uncountable m) := by
  rw [reached.decorations_of_published stored published, Provider.measure_of_parses parses]
  refine ⟨?_, Source.not_uncountable_of_mem_metrics⟩
  rcases Command.reports_or_overflows holds supported with ⟨functions, shown, reports⟩ | failed
  · exact .inl ⟨functions, _, reports, Decorations.shows_ofMetrics labels highlight shown⟩
  · exact .inr failed

/-- The module stands in a directory. -/
def moduleFiles : Files :=
  ⟨.directory [("src", .directory
    [("Module.RS", .file (.text Source.moduleText.text) (some Source.moduleTree))])], ["src"]⟩

/-- The module is opened, and a pass takes its snapshot. -/
def moduleSession : Session :=
  (Session.initial (.parsed [⟨some "rs", Source.moduleText.text, some Source.moduleTree⟩]) .default
    true).play
    [.event (.opened 0 Source.moduleText), .event (.fired 250), .event (.snapped 2)]

def moduleNotice : DecorationNotice :=
  ⟨Source.moduleText.uri, 1,
    .ofMetrics .default (moduleSession.provider.measure Source.moduleText)⟩

theorem analyze_agrees_with_session_module :
    moduleFiles.Holds "../src/Module.RS" Source.moduleText.text Source.moduleTree ∧
      (moduleSession.move (.event (.finished 2))).notices Source.moduleText.uri = [moduleNotice] ∧
      moduleNotice.decorations ≠ .clear ∧
      ∃ functions summary,
        Command.Reports moduleFiles "../src/Module.RS"
          ⟨[⟨"../src/Module.RS", some "Rust", functions⟩], summary⟩ ∧
          moduleNotice.decorations.Shows functions summary := by
  have holds : moduleFiles.Holds "../src/Module.RS" Source.moduleText.text Source.moduleTree :=
    ⟨["src", "Module.RS"], _, by decide, rfl, rfl⟩
  have published : (moduleSession.move (.event (.finished 2))).notices Source.moduleText.uri =
      [moduleNotice] := rfl
  have parses : moduleSession.provider.Parses Source.moduleText .rust Source.moduleText.text
      Source.moduleTree := ⟨rfl, by decide, rfl⟩
  obtain ⟨agrees | ⟨-, m, member, uncountable⟩, counted⟩ :=
    analyze_agrees_with_session holds (by decide) ⟨_, _, _, _, rfl⟩
      (by decide : moduleSession.store.get? Source.moduleText.uri = some Source.moduleText) parses
      rfl rfl published
  · exact ⟨holds, published, by decide, agrees⟩
  · exact absurd uncountable (counted (by decide) (by decide) m member)

end FunctionMeter
