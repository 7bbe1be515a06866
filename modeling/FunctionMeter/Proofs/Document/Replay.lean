import FunctionMeter.Proofs.Document.Store
import Mathlib

/-!
# The store as a history

A store is one list of documents, yet each name in it lives a life of its own: what is held for a
name is decided by the operations on this name alone, and of these by the ones since it was last
opened. `react` says what an operation does to what is held for a name, so that a run of the store
is for each name a fold of `react`.

The main result reads the store off the history. A document is held exactly if its name was opened
and not closed since; it is then the opened document with all later changes to it made in order,
under the version that came last.
-/

namespace FunctionMeter.Store

/-- What is asked of a store. -/
inductive Operation where
  | opening (document : Document)
  | changing (uri : Uri) (changes : List Change) (version : Int32)
  | closing (uri : Uri)
  | reading (uri : Uri)
  deriving DecidableEq, Repr

namespace Operation

/-- The name that an operation is about. -/
def uri : Operation → Uri
  | opening document => document.uri
  | changing uri _ _ => uri
  | closing uri => uri
  | reading uri => uri

/-- The answer of a store, and the store from then on. -/
def perform (store : Store) : Operation → Option Document × Store
  | opening document => (some document, store.insert document)
  | changing uri changes version =>
    match store.change? uri changes version with
    | some (updated, store') => (some updated, store')
    | none => (none, store)
  | closing uri => (store.get? uri, store.erase uri)
  | reading uri => (store.get? uri, store)

/-- What an operation makes of the document that is held for its name. -/
def renew (held : Option Document) : Operation → Option Document
  | opening document => some document
  | changing _ changes version => held.map (·.apply changes version)
  | closing _ => none
  | reading _ => held

/-- What an operation makes of the document that is held for a name, its own or another. -/
def react (uri : Uri) (held : Option Document) (operation : Operation) : Option Document :=
  if operation.uri = uri then operation.renew held else held

/-- The changes and the version that an operation brings for a name. -/
def revision? (uri : Uri) : Operation → Option (List Change × Int32)
  | changing name changes version => if name = uri then some (changes, version) else none
  | _ => none

end Operation

open Operation

/-- The store after a list of operations. -/
def after (operations : List Operation) : Store :=
  operations.foldl (fun store operation => (operation.perform store).2) empty

/-- A name was opened, and among the operations since then there is no other opening and no closing
of it. -/
structure OpenSince (operations : List Operation) (uri : Uri) (opened : Document)
    (later : List Operation) : Prop where
  history : ∃ earlier, operations = earlier ++ opening opened :: later
  named : opened.uri = uri
  last : ∀ d, opening d ∈ later → d.uri ≠ uri
  kept : closing uri ∉ later

/-- All revisions of a name, in order. -/
def revisions (uri : Uri) (operations : List Operation) : List (List Change × Int32) :=
  operations.filterMap (revision? uri)

/-- A text with the changes of all revisions made in order. -/
def replayText (text : String) (revisions : List (List Change × Int32)) : List Char :=
  (revisions.flatMap (·.1)).foldl Change.applyTo text.toList

/-- The version that came last. -/
def replayVersion (version : Int32) (revisions : List (List Change × Int32)) : Int32 :=
  (revisions.getLast?.map (·.2)).getD version

/-- A document is an opened one with all its later revisions. -/
structure Replays (opened : Document) (revisions : List (List Change × Int32)) (d : Document) :
    Prop where
  uri : d.uri = opened.uri
  version : d.version = replayVersion opened.version revisions
  text : d.text.toList = replayText opened.text revisions
  lines : d.lines = (((replayText opened.text revisions).splitOn '\n').map fun line =>
    if line.getLast? = some '\r' then line.dropLast else line).map String.ofList

variable {store : Store} {uri : Uri} {opened d : Document} {operations later : List Operation}

/-! ## Names do not interfere -/

theorem react_opening (named : opened.uri = uri) (held : Option Document) :
    react uri held (opening opened) = some opened := if_pos named

theorem perform_of_absent (absent : store.get? uri = none) (changes : List Change)
    (version : Int32) : (changing uri changes version).perform store = (none, store) := by
  simp only [perform, change?, absent, Option.map_none]

theorem perform_of_held (found : store.get? uri = some d) (changes : List Change)
    (version : Int32) :
    (changing uri changes version).perform store =
      (some (d.apply changes version), store.insert (d.apply changes version)) := by
  simp only [perform, change?, found, Option.map_some]

/-- Whatever an operation does to a store, each name sees of it what concerns this name. -/
theorem get?_perform (store : Store) (operation : Operation) (uri : Uri) :
    (operation.perform store).2.get? uri = react uri (store.get? uri) operation := by
  by_cases own : operation.uri = uri
  · rw [react, if_pos own]
    cases operation with
    | opening document =>
        obtain rfl : document.uri = uri := own
        exact get?_insert_self store document
    | changing name changes version =>
        obtain rfl : name = uri := own
        cases found : store.get? name with
        | none =>
            rw [perform_of_absent found]
            exact found
        | some d =>
            obtain rfl : d.uri = name := uri_of_get? found
            rw [perform_of_held found]
            exact get?_insert_self store (d.apply changes version)
    | closing name =>
        obtain rfl : name = uri := own
        exact get?_erase_self store name
    | reading name => rfl
  · rw [react, if_neg own]
    cases operation with
    | opening document => exact get?_insert_of_ne store own
    | changing name changes version =>
        cases found : store.get? name with
        | none => rw [perform_of_absent found]
        | some d =>
            obtain rfl : d.uri = name := uri_of_get? found
            rw [perform_of_held found]
            exact get?_insert_of_ne store own
    | closing name => exact get?_erase_of_ne store (Ne.symm own)
    | reading name => rfl

/-- A run of the store is a run for each name. -/
theorem get?_after (operations : List Operation) (uri : Uri) :
    (after operations).get? uri = operations.foldl (react uri) none := by
  induction operations using List.reverseRecOn with
  | nil => rfl
  | append_singleton operations operation ih =>
      rw [after, List.foldl_concat, List.foldl_concat, ← after, get?_perform, ih]

/-- Operations on other names may as well not have been. -/
theorem get?_after_filter (operations : List Operation) (uri : Uri) :
    (after (operations.filter (·.uri = uri))).get? uri = (after operations).get? uri := by
  rw [get?_after, get?_after, List.foldl_filter]
  congr 1
  funext held operation
  by_cases own : operation.uri = uri
  · rw [if_pos (decide_eq_true own)]
  · rw [if_neg (by simpa using own), react, if_neg own]

/-! ## A document since its opening -/

/-- A document as the revisions since its opening leave it. -/
def replay (opened : Document) (revisions : List (List Change × Int32)) : Document :=
  revisions.foldl (fun d revision => d.apply revision.1 revision.2) opened

theorem replays_replay (opened : Document) (revisions : List (List Change × Int32)) :
    Replays opened revisions (replay opened revisions) := by
  have parts : (replay opened revisions).uri = opened.uri ∧
      (replay opened revisions).version = replayVersion opened.version revisions ∧
      (replay opened revisions).text.toList = replayText opened.text revisions := by
    induction revisions using List.reverseRecOn with
    | nil => exact ⟨rfl, rfl, rfl⟩
    | append_singleton revisions revision ih =>
        obtain ⟨name, -, text⟩ := ih
        have step : replay opened (revisions ++ [revision]) =
            (replay opened revisions).apply revision.1 revision.2 := List.foldl_concat ..
        refine ⟨?_, ?_, ?_⟩
        · rw [step]
          exact name
        · rw [step, replayVersion, List.getLast?_concat]
          rfl
        · rw [step, Document.apply, String.toList_ofList, text, replayText, replayText,
            List.flatMap_append, List.foldl_append, List.flatMap_singleton]
  obtain ⟨name, version, text⟩ := parts
  refine ⟨name, version, text, ?_⟩
  rw [Document.lines, text]
  rfl

/-- Revisions leave only one document. -/
theorem Replays.eq_replay {revisions : List (List Change × Int32)}
    (h : Replays opened revisions d) : d = replay opened revisions := by
  have other := replays_replay opened revisions
  have text : d.text = (replay opened revisions).text :=
    String.toList_inj.mp (h.text.trans other.text.symm)
  cases d
  cases found : replay opened revisions
  rw [found] at other text
  obtain rfl := h.uri.trans other.uri.symm
  obtain rfl := h.version.trans other.version.symm
  obtain rfl := text
  rfl

/-- While a name is neither opened nor closed, each operation is a revision of its document or
leaves it alone. -/
theorem react_of_kept (operation : Operation) (last : ∀ d, operation = opening d → d.uri ≠ uri)
    (kept : operation ≠ closing uri) (d : Document) :
    react uri (some d) operation = some (replay d (revision? uri operation).toList) := by
  rw [react]
  split
  · rename_i own
    cases operation with
    | opening document => exact absurd own (last document rfl)
    | changing name changes version =>
        obtain rfl : name = uri := own
        rw [revision?, if_pos rfl]
        rfl
    | closing name => exact absurd (congrArg closing own) kept
    | reading name => rfl
  · rename_i away
    cases operation with
    | changing name changes version =>
        have absent : revision? uri (changing name changes version) = none := if_neg away
        rw [absent]
        rfl
    | opening document => rfl
    | closing name => rfl
    | reading name => rfl

theorem foldl_react_of_kept (last : ∀ d, opening d ∈ later → d.uri ≠ uri)
    (kept : closing uri ∉ later) (opened : Document) :
    later.foldl (react uri) (some opened) = some (replay opened (revisions uri later)) := by
  induction later generalizing opened with
  | nil => rfl
  | cons operation later ih =>
      obtain ⟨notNow, notLater⟩ := not_or.mp (mt List.mem_cons.mpr kept)
      have first := react_of_kept operation (fun d same => last d (same ▸ List.mem_cons_self))
        (Ne.symm notNow) opened
      have rest := ih (fun d member => last d (List.mem_cons_of_mem _ member)) notLater
        (replay opened (revision? uri operation).toList)
      have parts : revisions uri (operation :: later) =
          (revision? uri operation).toList ++ revisions uri later := by
        rw [revisions, List.filterMap_cons]
        cases revision? uri operation <;> rfl
      rw [List.foldl_cons, first, rest, parts, replay, replay, replay, ← List.foldl_append]

theorem OpenSince.get?_after (h : OpenSince operations uri opened later) :
    (after operations).get? uri = some (replay opened (revisions uri later)) := by
  obtain ⟨earlier, rfl⟩ := h.history
  rw [Store.get?_after, List.foldl_append, List.foldl_cons, react_opening h.named,
    foldl_react_of_kept h.last h.kept]

/-- What an operation adds to a history in which a name is open. -/
theorem OpenSince.concat (h : OpenSince operations uri opened later) (operation : Operation)
    (last : ∀ d, operation = opening d → d.uri ≠ uri) (kept : operation ≠ closing uri) :
    OpenSince (operations ++ [operation]) uri opened (later ++ [operation]) := by
  obtain ⟨⟨earlier, rfl⟩, named, lastBefore, keptBefore⟩ := h
  refine ⟨⟨earlier, by rw [List.append_assoc, List.cons_append]⟩, named, ?_, ?_⟩
  · intro d member
    obtain before | now := List.mem_append.mp member
    · exact lastBefore d before
    · exact last d (List.mem_singleton.mp now).symm
  · intro member
    obtain before | now := List.mem_append.mp member
    · exact keptBefore before
    · exact kept (List.mem_singleton.mp now).symm

/-- A name that a store holds was opened and has been kept open since. -/
theorem exists_openSince (found : (after operations).get? uri = some d) :
    ∃ opened later, OpenSince operations uri opened later := by
  -- The last operation opens the name itself, or the name was open before it and stays so.
  induction operations using List.reverseRecOn generalizing d with
  | nil => cases found
  | append_singleton operations operation ih =>
      rw [get?_after, List.foldl_concat, ← get?_after, react] at found
      split at found
      · rename_i own
        cases operation with
        | opening document =>
            exact ⟨document, [], ⟨operations, rfl⟩, own, nofun, List.not_mem_nil⟩
        | changing name changes version =>
            obtain ⟨before, held, -⟩ := Option.map_eq_some_iff.mp found
            obtain ⟨opened, later, since⟩ := ih held
            exact ⟨opened, _, since.concat _ nofun nofun⟩
        | closing name => cases found
        | reading name =>
            obtain ⟨opened, later, since⟩ := ih found
            exact ⟨opened, _, since.concat _ nofun nofun⟩
      · rename_i away
        obtain ⟨opened, later, since⟩ := ih found
        refine ⟨opened, _, since.concat operation ?_ ?_⟩
        · rintro document rfl
          exact away
        · rintro rfl
          exact away rfl

theorem get?_after_eq_some : (after operations).get? uri = some d ↔
    ∃ opened later, OpenSince operations uri opened later ∧
      Replays opened (revisions uri later) d := by
  constructor
  · intro found
    obtain ⟨opened, later, since⟩ := exists_openSince found
    obtain rfl := Option.some.inj (since.get?_after.symm.trans found)
    exact ⟨opened, later, since, replays_replay _ _⟩
  · rintro ⟨opened, later, since, replays⟩
    rw [since.get?_after, replays.eq_replay]

/-- A name that was opened is held as long as it is not closed, however often it is opened anew. -/
theorem isSome_foldl_react (kept : closing uri ∉ later) (opened : Document) :
    (later.foldl (react uri) (some opened)).isSome = true := by
  induction later using List.reverseRecOn with
  | nil => rfl
  | append_singleton later operation ih =>
      have notBefore : closing uri ∉ later :=
        fun member => kept (List.mem_append_left _ member)
      obtain ⟨d, held⟩ := Option.isSome_iff_exists.mp (ih notBefore)
      rw [List.foldl_concat, held, react]
      split
      · rename_i own
        cases operation with
        | closing name =>
            obtain rfl : name = uri := own
            exact absurd (List.mem_append_right _ List.mem_cons_self) kept
        | opening document => rfl
        | changing name changes version => rfl
        | reading name => rfl
      · rfl

/-- A name is absent exactly if each of its openings was followed by a closing. -/
theorem get?_after_eq_none : (after operations).get? uri = none ↔
    ∀ earlier opened later, operations = earlier ++ opening opened :: later →
      opened.uri = uri → closing uri ∈ later := by
  constructor
  · rintro absent earlier opened later rfl named
    by_contra kept
    have held := isSome_foldl_react kept opened
    rw [get?_after, List.foldl_append, List.foldl_cons, react_opening named] at absent
    simp only [absent, Option.isSome_none, Bool.false_eq_true] at held
  · intro closed
    rw [Option.eq_none_iff_forall_ne_some]
    intro d found
    obtain ⟨opened, later, since⟩ := exists_openSince found
    obtain ⟨earlier, split⟩ := since.history
    exact since.kept (closed earlier opened later split since.named)

/-! ## The number of documents -/

/-- Documents of one name each. -/
def Distinct (store : Store) : Prop := (store.documents.map (·.uri)).Nodup

theorem map_uri_put (document : Document) (documents : List Document) :
    (put document documents).map (·.uri) =
      if document.uri ∈ documents.map (·.uri) then documents.map (·.uri)
      else documents.map (·.uri) ++ [document.uri] := by
  induction documents with
  | nil => rfl
  | cons d documents ih =>
      rw [put]
      by_cases same : d.uri = document.uri
      · simp [same]
      · rw [if_neg same, List.map_cons, ih, List.map_cons]
        by_cases member : document.uri ∈ documents.map (·.uri)
        · rw [if_pos member, if_pos (List.mem_cons_of_mem _ member)]
        · have absent : document.uri ∉ d.uri :: documents.map (·.uri) :=
            mt List.mem_cons.mp (not_or.mpr ⟨Ne.symm same, member⟩)
          rw [if_neg member, if_neg absent, List.cons_append]

theorem Distinct.insert (h : store.Distinct) (document : Document) :
    (store.insert document).Distinct := by
  rw [Distinct, Store.insert, map_uri_put]
  split
  · exact h
  · rename_i absent
    exact List.nodup_append.mpr ⟨h, List.nodup_singleton _, by
      intro name member other single
      rw [List.mem_singleton.mp single]
      exact fun same => absent (same ▸ member)⟩

theorem Distinct.perform (h : store.Distinct) (operation : Operation) :
    (operation.perform store).2.Distinct := by
  cases operation with
  | opening document => exact h.insert document
  | changing name changes version =>
      cases found : store.get? name with
      | none => rwa [perform_of_absent found]
      | some d =>
          rw [perform_of_held found]
          exact h.insert _
  | closing name => exact h.sublist (List.filter_sublist.map _)
  | reading name => exact h

theorem distinct_after (operations : List Operation) : (after operations).Distinct := by
  induction operations using List.reverseRecOn with
  | nil => exact List.nodup_nil
  | append_singleton operations operation ih =>
      rw [after, List.foldl_concat, ← after]
      exact ih.perform operation

theorem mem_map_uri : uri ∈ store.documents.map (·.uri) ↔ ∃ d, store.get? uri = some d := by
  rw [← Option.isSome_iff_exists, get?, List.find?_isSome, List.mem_map]
  simp only [decide_eq_true_eq]

/-- A store of distinct documents holds as many as there are names with a document. -/
theorem Distinct.size_eq (h : store.Distinct) :
    store.size = {uri | ∃ d, store.get? uri = some d}.ncard := by
  have names : {uri | ∃ d, store.get? uri = some d} =
      ((store.documents.map (·.uri)).toFinset : Set Uri) := by
    ext name
    rw [Set.mem_ofPred_eq, List.coe_toFinset, Set.mem_ofPred_eq, mem_map_uri]
  rw [names, Set.ncard_coe_finset, List.toFinset_card_of_nodup h, List.length_map, size]

/-! ## The store read off its history -/

/-- After any operations a store is what its history says: for each name the replay of what was done
to this name since it was last opened, nothing if it was closed since or never opened. Operations on
other names have no part in it, a change of a name that is not open is refused and does nothing, and
the documents are as many as the names that are open. -/
theorem after_is_replay (operations : List Operation) :
    (∀ uri, (after operations).get? uri = none ↔
      ∀ earlier opened later, operations = earlier ++ opening opened :: later →
        opened.uri = uri → closing uri ∈ later) ∧
    (∀ uri d, (after operations).get? uri = some d ↔
      ∃ opened later, OpenSince operations uri opened later ∧
        Replays opened (revisions uri later) d) ∧
    (∀ uri, (after (operations.filter (·.uri = uri))).get? uri = (after operations).get? uri) ∧
    (∀ uri changes version, (after operations).get? uri = none →
      (changing uri changes version).perform (after operations) = (none, after operations)) ∧
    (after operations).size =
      {uri | ∃ opened later, OpenSince operations uri opened later}.ncard := by
  refine ⟨fun uri => get?_after_eq_none, fun uri d => get?_after_eq_some,
    get?_after_filter operations, ?_, ?_⟩
  · intro uri changes version absent
    exact perform_of_absent absent changes version
  · have names : {uri | ∃ d, (after operations).get? uri = some d} =
        {uri | ∃ opened later, OpenSince operations uri opened later} := by
      ext uri
      constructor
      · rintro ⟨d, found⟩
        exact exists_openSince found
      · rintro ⟨opened, later, since⟩
        exact ⟨_, since.get?_after⟩
    rw [(distinct_after operations).size_eq, names]

/-- Two notes: the first is opened twice and changed, once by an edit beyond its text; the second is
changed before it is opened, and it is closed in the end. -/
def noteHistory : List Operation :=
  [opening ⟨⟨"untitled", none, "one", none, none⟩, 1, "a"⟩,
    changing ⟨"untitled", none, "two", none, none⟩ [⟨none, "lost"⟩] 7,
    opening ⟨⟨"untitled", none, "two", none, none⟩, 1, "b"⟩,
    opening ⟨⟨"untitled", none, "one", none, none⟩, 4, "c\r\nd"⟩,
    changing ⟨"untitled", none, "one", none, none⟩
      [⟨some ⟨⟨9, 0⟩, ⟨9, 0⟩⟩, "skipped"⟩, ⟨some ⟨⟨1, 1⟩, ⟨1, 1⟩⟩, "e"⟩] 5,
    closing ⟨"untitled", none, "two", none, none⟩,
    reading ⟨"untitled", none, "one", none, none⟩]

theorem after_is_replay_notes :
    (after noteHistory).get? ⟨"untitled", none, "two", none, none⟩ = none ∧
      (changing ⟨"untitled", none, "two", none, none⟩ [] 2).perform (after noteHistory) =
        (none, after noteHistory) ∧
      ∃ opened later, OpenSince noteHistory ⟨"untitled", none, "one", none, none⟩ opened later ∧
        Replays opened (revisions ⟨"untitled", none, "one", none, none⟩ later)
          ⟨⟨"untitled", none, "one", none, none⟩, 5, "c\r\nde"⟩ := by
  obtain ⟨-, present, -, refused, -⟩ := after_is_replay noteHistory
  have absent : (after noteHistory).get? ⟨"untitled", none, "two", none, none⟩ = none := by decide
  exact ⟨absent, refused _ [] 2 absent, (present _ _).mp (by decide)⟩

end FunctionMeter.Store
