import FunctionMeter.Proofs.Collect
import Mathlib

/-!
# Two ways to recognise a language

The language of a file is found twice: from its path, to decide whether the file is taken at all, and
from the URI of its document, to measure it. One way brings the extension to the small letters of
Unicode, the other escapes the name and brings it to the small letters of ASCII. They agree, but for
a name whose only dot is its first character: there the path has no extension and the URI has one.
No file is lost by this, since the path is looked at first.
-/

namespace FunctionMeter.Command

variable {files : Files} {paths : List String} {t : Target} {ts : List Target}

theorem measureTarget_of_language {text : String} {root : Node} {content : Content}
    {language : Language} (supported : languageOf t.path = some language)
    (recognised : (document t.names text).language? = some language)
    (file : files.root.at? t.names = some (.file content (some root)))
    (readable : content.text? = some text) :
    ∃ m, measureTarget files t = some m ∧ m.path = t.path ∧ m.language = some language.name := by
  simp only [measureTarget, file, readable, Document.symbols?, recognised, supported,
    Option.map_some, Option.bind_eq_bind, Option.bind_some]
  exact ⟨_, rfl, rfl, rfl⟩

/-- A target is a file of a language by its path and by its document, and it is listed in this
language if it can be read as text and has a syntax tree. -/
structure Recognised (files : Files) (measured : List MeasuredFile) (t : Target)
    (language : Language) : Prop where
  file : ∃ content tree, files.root.at? t.names = some (.file content tree)
  supported : languageOf t.path = some language
  recognised : ∀ text, (document t.names text).language? = some language
  listed : ∀ content root text, files.root.at? t.names = some (.file content (some root)) →
    content.text? = some text → ∃ m ∈ measured, m.path = t.path ∧ m.language = some language.name

theorem exists_recognised (formed : files.root.WellFormed)
    (collected : collect files paths = .ok ts) (member : t ∈ ts) :
    ∃ language, Recognised files (listing files ts) t language := by
  obtain ⟨path, -, reached⟩ := reaches_of_mem_collect collected member
  obtain ⟨language, supported⟩ := Option.isSome_iff_exists.mp reached.supported
  obtain ⟨-, resolved, content, tree, file⟩ := reached.below formed
  have recognised (text : String) : (document t.names text).language? = some language :=
    language?_document resolved file supported
  refine ⟨language, ⟨content, tree, file⟩, supported, recognised, ?_⟩
  intro content root text file readable
  obtain ⟨m, measured, same⟩ := measureTarget_of_language supported (recognised text) file readable
  exact ⟨m, mem_listing.mpr ⟨t, member, measured⟩, same⟩

/-- The language that is found from a path and the one found from the URI of the place that it leads
to are the same, wherever the directories on the way lie, unless the only dot of the name at the end
is its first character: then the path gives none. A path to a file does end in the name of the file.
So of the files that are collected none is left out of the report for its language. -/
theorem languages_agree (formed : files.root.WellFormed) :
    (∀ (path name text : String) (names : List String), Path.fileName? path = some name →
      names.getLast? = some name →
      (Path.IsDotName name → languageOf path = none) ∧
      (¬ Path.IsDotName name → (document names text).language? = languageOf path)) ∧
    (∀ (path : String) (names : List String) (content : Content) (tree : Option Node),
      files.resolve? path = some names → files.root.at? names = some (.file content tree) →
      ∃ name, Path.fileName? path = some name ∧ names.getLast? = some name) ∧
    (∀ (paths : List String) (ts : List Target), collect files paths = .ok ts →
      ∃ measured, measurePaths files paths = .ok measured ∧
        (∀ t ∈ ts, ∃ language, Recognised files measured t language) ∧
        ∀ minimum report, Report.build? measured minimum = some report →
          report.files.map (·.path) = measured.map (·.path)) := by
  refine ⟨?_, ?_, ?_⟩
  · intro path name text names named last
    exact ⟨languageOf_of_isDotName named, language?_document_of_name named last⟩
  · intro path names content tree
    exact Files.exists_name_of_resolve?
  · intro paths ts collected
    refine ⟨listing files ts, ?_, fun t member => exists_recognised formed collected member,
      fun minimum report => Report.map_path_build?⟩
    rw [measurePaths_eq, collected]
    rfl

/-- A file whose name is partly escaped in its URI, and one whose only dot is its first character. -/
def oddFiles : Files :=
  ⟨((Entry.directory []).insert functionFile ["src", "é 1%.PY"]).insert functionFile ["src", ".py"],
    []⟩

theorem wellFormed_oddFiles : oddFiles.root.WellFormed := by
  have file : functionFile.WellFormed := .file ..
  have empty : Entry.WellFormed (.directory []) := .directory .nil nofun nofun
  exact (empty.insert (by decide) file).insert (by decide) file

/-- By its path the second file has no language, by its URI it would have one. The first file is
collected, and it is reported in its language. -/
theorem languages_agree_odd :
    languageOf "/src/./é 1%.PY" = some .python ∧
    (document ["src", "é 1%.PY"] "").language? = some .python ∧
    languageOf "/src/.py" = none ∧ (document ["src", ".py"] "").language? = some .python ∧
    ∃ measured, measurePaths oddFiles ["/src"] = .ok measured ∧
      ∃ m ∈ measured, m.path = "/src/é 1%.PY" ∧ m.language = some "Python" := by
  obtain ⟨agree, -, taken⟩ := languages_agree wellFormed_oddFiles
  have python : languageOf "/src/./é 1%.PY" = some .python := by decide
  obtain ⟨-, visible⟩ :=
    agree "/src/./é 1%.PY" "é 1%.PY" "" ["src", "é 1%.PY"] (by decide) (by decide)
  obtain ⟨hidden, -⟩ := agree "/src/.py" ".py" "" ["src", ".py"] (by decide) (by decide)
  have reached : ["/src"].mapM (targets oddFiles) =
      .ok [[⟨"/src/é 1%.PY", ["src", "é 1%.PY"]⟩]] := by rfl
  have collected : collect oddFiles ["/src"] = .ok [⟨"/src/é 1%.PY", ["src", "é 1%.PY"]⟩] :=
    collect_singleton reached
  obtain ⟨measured, all, recognised, -⟩ := taken _ _ collected
  obtain ⟨language, known⟩ := recognised _ List.mem_cons_self
  obtain ⟨m, inside, path, shown⟩ := known.listed _ _ _ (by rfl) (by rfl)
  have same : languageOf "/src/é 1%.PY" = some .python := by decide
  cases known.supported.symm.trans same
  exact ⟨python, (visible (by decide)).trans python, hidden (by decide), by decide, measured, all, m,
    inside, path, shown⟩

end FunctionMeter.Command
