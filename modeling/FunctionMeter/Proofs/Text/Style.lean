import FunctionMeter.Report.Render
import FunctionMeter.Watch
import Mathlib

/-!
# Text under its styles

Styles only add display sequences: an escape character, a bracket, the digits of a code and the
letter `m`. With all such sequences taken out, a coloured report is the one without colours,
character by character, and so is the notice about a changed file.

Styled text is compared piece by piece. A piece shows as another one if, whatever follows, taking
the sequences out of it leaves the other one. This goes on from piece to piece, since a sequence
never runs over the end of the piece that it is in.
-/

namespace FunctionMeter

namespace Style

/-! ## Display sequences -/

/-- What follows a display sequence at the start of a text. -/
def afterSequence? : List Char → Option (List Char)
  | '\x1b' :: '[' :: rest =>
    match rest.takeWhile Char.isDigit, rest.dropWhile Char.isDigit with
    | _ :: _, 'm' :: after => some after
    | _, _ => none
  | _ => none

theorem length_of_afterSequence? {cs after : List Char} (found : afterSequence? cs = some after) :
    after.length < cs.length := by
  rw [afterSequence?.eq_def] at found
  split at found
  · rename_i rest
    split at found
    · rename_i digit digits behind split
      cases found
      have shorter := (List.dropWhile_suffix Char.isDigit (l := rest)).length_le
      rw [split] at shorter
      simp only [List.length_cons] at *
      omega
    · cases found
  · cases found

/-- A text without its display sequences. -/
def withoutSequences : List Char → List Char
  | [] => []
  | c :: cs =>
    match _h : afterSequence? (c :: cs) with
    | some after => withoutSequences after
    | none => c :: withoutSequences cs
termination_by cs => cs.length
decreasing_by
  · exact length_of_afterSequence? _h
  · exact Nat.lt_succ_self _

def strip (text : String) : String := String.ofList (withoutSequences text.toList)

theorem withoutSequences_sequence {digits : List Char} (any : digits ≠ [])
    (all : ∀ c ∈ digits, c.isDigit = true) (rest : List Char) :
    withoutSequences ('\x1b' :: '[' :: (digits ++ 'm' :: rest)) = withoutSequences rest := by
  obtain ⟨digit, digits, rfl⟩ := List.exists_cons_of_ne_nil any
  have found : afterSequence? ('\x1b' :: '[' :: (digit :: digits ++ 'm' :: rest)) = some rest := by
    have letter : Char.isDigit 'm' = false := by decide
    rw [afterSequence?, List.takeWhile_append_of_pos all, List.dropWhile_append_of_pos all,
      List.dropWhile_cons_of_neg (by simp [letter])]
    rfl
  rw [withoutSequences]
  split
  · rename_i after found'
    rw [Option.some.inj (found.symm.trans found')]
  · rename_i missing
    cases found.symm.trans missing

theorem withoutSequences_cons {c : Char} (other : c ≠ '\x1b') (cs : List Char) :
    withoutSequences (c :: cs) = c :: withoutSequences cs := by
  have missing : afterSequence? (c :: cs) = none := by
    apply afterSequence?.eq_2
    intro rest same
    exact other (List.cons.inj same).1
  rw [withoutSequences]
  split
  · rename_i after found
    cases missing.symm.trans found
  · rfl

/-! ## Plain text -/

/-- A text without the escape character. -/
def Plain (text : String) : Prop := '\x1b' ∉ text.toList

instance (text : String) : Decidable (Plain text) :=
  inferInstanceAs (Decidable ('\x1b' ∉ text.toList))

namespace Plain

theorem append {a b : String} (first : Plain a) (second : Plain b) : Plain (a ++ b) := by
  rw [Plain, String.toList_append, List.mem_append, not_or]
  exact ⟨first, second⟩

theorem blanks (n : Nat) : Plain (String.ofList (List.replicate n ' ')) := by
  rw [Plain, String.toList_ofList]
  intro inside
  cases List.eq_of_mem_replicate inside

theorem padLeft {text : String} (plain : Plain text) (width : Nat) :
    Plain (Text.padLeft width text) :=
  (blanks _).append plain

theorem padRight {text : String} (plain : Plain text) (width : Nat) :
    Plain (Text.padRight width text) :=
  plain.append (blanks _)

theorem repr (n : Nat) : Plain n.repr := by
  rw [Plain, Nat.toList_repr]
  intro inside
  cases Nat.isDigit_of_mem_toDigits (by decide) (by decide) inside

theorem name (c : Category) : Plain c.name := by
  cases c <;> decide

end Plain

/-! ## Styled text -/

/-- Whatever follows, a styled text without its sequences is another text. -/
def Shows (styled plain : String) : Prop :=
  ∀ rest, withoutSequences (styled.toList ++ rest) = plain.toList ++ withoutSequences rest

theorem shows_plain {text : String} (plain : Plain text) : Shows text text := by
  intro rest
  rw [Plain] at plain
  generalize text.toList = cs at plain ⊢
  induction cs with
  | nil => rfl
  | cons c cs ih =>
      rw [List.mem_cons, not_or] at plain
      rw [List.cons_append, withoutSequences_cons (Ne.symm plain.1), ih plain.2, List.cons_append]

theorem shows_escape (code : Nat) : Shows (escape code) "" := by
  intro rest
  have digits : ∀ c ∈ Nat.toDigits 10 code, c.isDigit = true := fun c inside =>
    Nat.isDigit_of_mem_toDigits (by decide) (by decide) inside
  have spelled : (escape code).toList ++ rest =
      '\x1b' :: '[' :: (Nat.toDigits 10 code ++ 'm' :: rest) := by
    simp [escape, Nat.toList_repr]
  rw [spelled, withoutSequences_sequence Nat.toDigits_ne_nil digits]
  rfl

namespace Shows

variable {a b c d : String}

theorem append (first : Shows a b) (second : Shows c d) : Shows (a ++ c) (b ++ d) := by
  intro rest
  rw [String.toList_append, String.toList_append, List.append_assoc, List.append_assoc, first,
    second]

theorem join {α : Type} {items : List α} {f g : α → String}
    (each : ∀ x ∈ items, Shows (f x) (g x)) :
    Shows (String.join (items.map f)) (String.join (items.map g)) := by
  induction items with
  | nil => exact fun rest => rfl
  | cons x items ih =>
      obtain ⟨first, others⟩ := List.forall_mem_cons.mp each
      rw [List.map_cons, List.map_cons, String.join_cons, String.join_cons]
      exact first.append (ih others)

/-- A plain text follows. -/
theorem text (before : Shows a b) (plain : Plain c) : Shows (a ++ c) (b ++ c) :=
  before.append (shows_plain plain)

theorem strip_eq (shows : Shows a b) : strip a = b := by
  have whole := shows []
  rw [List.append_nil, withoutSequences, List.append_nil] at whole
  rw [strip, whole, String.ofList_toList]

end Shows

theorem shows_apply (style : Style) {text : String} (plain : Plain text) :
    Shows (style.apply true text) (style.apply false text) := by
  have codes : Shows (String.join (style.codes.map escape)) "" := by
    have none := Shows.join fun code (_ : code ∈ style.codes) => shows_escape code
    have empty : String.join (style.codes.map fun _ => "") = "" := by
      apply String.toList_injective
      simp
    rwa [empty] at none
  have whole := (codes.text plain).append (shows_escape 0)
  rwa [String.empty_append, String.append_empty] at whole

/-- A styled text follows. -/
theorem Shows.styled {a b text : String} (before : Shows a b) (style : Style)
    (plain : Plain text) :
    Shows (a ++ style.apply true text) (b ++ style.apply false text) :=
  before.append (shows_apply style plain)

end Style

/-! ## Reports -/

/-- No text in the report of a file has the escape character. -/
structure FileReport.IsPlain (file : FileReport) : Prop where
  path : Style.Plain file.path
  language : ∀ language, file.language = some language → Style.Plain language
  functions : ∀ f ∈ file.functions, Style.Plain f.name

namespace Report

open Style

theorem shows_functionRow {f : FunctionReport} (plain : Plain f.name) (width : Nat) :
    Shows (functionRow true width f) (functionRow false width f) := by
  have margin : Plain "  " := by decide
  have unit : Plain " LOC  " := by decide
  have newline : Plain "\n" := by decide
  exact (shows_plain margin).styled .dim ((Plain.repr _).padLeft 5) |>.text margin
    |>.text (plain.padRight width) |>.text margin |>.text ((Plain.repr _).padLeft 4) |>.text unit
    |>.styled _ (.name _) |>.text newline

/-- The language as it stands behind the path of a file. -/
def languageNote : Option String → String
  | some language => " (" ++ language ++ ")"
  | none => ""

theorem plain_languageNote {known : Option String}
    (plain : ∀ language, known = some language → Plain language) : Plain (languageNote known) := by
  cases known with
  | none => decide
  | some language =>
      have opening : Plain " (" := by decide
      have closing : Plain ")" := by decide
      exact (opening.append (plain language rfl)).append closing

theorem shows_fileTable {file : FileReport} (plain : file.IsPlain) :
    Shows (fileTable true file) (fileTable false file) := by
  have newline : Plain "\n" := by decide
  have margin : Plain "  " := by decide
  have missing : Plain "no functions" := by decide
  have heading := (shows_plain newline).styled .cyanBold plain.path
    |>.styled .dim (plain_languageNote plain.language) |>.text newline
  rw [fileTable, fileTable]
  split
  · exact heading.text margin |>.styled .dim missing |>.text newline
  · exact heading.append (.join fun f inside => shows_functionRow (plain.functions f inside) _)

theorem shows_summaryLine (s : Summary) : Shows (summaryLine true s) (summaryLine false s) := by
  have newline : Plain "\n" := by decide
  have title : Plain "Summary:" := by decide
  have blank : Plain " " := by decide
  have functions : Plain " functions: " := by decide
  have low : Plain " low, " := by decide
  have medium : Plain " medium, " := by decide
  have high : Plain " high\n" := by decide
  exact (shows_plain newline).styled .bold title |>.text blank |>.text (.repr _) |>.text functions
    |>.styled _ (.repr _) |>.text low |>.styled _ (.repr _) |>.text medium |>.styled _ (.repr _)
    |>.text high

theorem shows_renderText {r : Report} (plain : ∀ file ∈ r.files, file.IsPlain) :
    Shows (r.renderText true) (r.renderText false) :=
  (Shows.join fun file inside => shows_fileTable (plain file inside)).append
    (shows_summaryLine r.summary)

end Report

/-! ## Notices -/

namespace Watch

open Style

/-- The name of the function that a change is about. -/
def SizeChange.about : SizeChange → String
  | .added name _ _ | .removed name | .resized name _ _ _ _ => name

theorem SizeChange.shows_tier (before after : Category) :
    Shows (tier true before after) (tier false before after) := by
  have arrow : Plain " → " := by decide
  have step : Plain (before.name ++ " → " ++ after.name) :=
    ((Plain.name before).append arrow).append (.name after)
  rw [tier, tier]
  split_ifs
  · exact shows_apply .dim (.name after)
  · exact shows_apply .redBold step
  · exact shows_apply .green step

theorem SizeChange.shows_render {change : SizeChange} (plain : Plain change.about) :
    Shows (change.render true) (change.render false) := by
  have margin : Plain "  " := by decide
  have blank : Plain " " := by decide
  have unit : Plain " LOC (" := by decide
  have closing : Plain ")\n" := by decide
  cases change with
  | added name loc category =>
      have mark : Plain "+" := by decide
      exact (shows_plain margin).styled .green mark |>.text blank |>.text plain |>.text blank
        |>.text (.repr _) |>.text unit |>.text (.name category) |>.text closing
  | removed name =>
      have mark : Plain "-" := by decide
      have newline : Plain "\n" := by decide
      exact (shows_plain margin).styled .red mark |>.text blank |>.styled .strikethrough plain
        |>.text newline
  | resized name before after categoryBefore categoryAfter =>
      have mark : Plain "~" := by decide
      have arrow : Plain " → " := by decide
      exact (shows_plain margin).styled .yellow mark |>.text blank |>.text plain |>.text blank
        |>.text (.repr _) |>.text arrow |>.text (.repr _) |>.text unit
        |>.append (shows_tier categoryBefore categoryAfter) |>.text closing

theorem shows_notice {time path : String} {changes : List SizeChange} (plainTime : Plain time)
    (plainPath : Plain path) (plain : ∀ change ∈ changes, Plain change.about) :
    Shows (notice true time path changes) (notice false time path changes) := by
  have opening : Plain "[" := by decide
  have closing : Plain "]" := by decide
  have blank : Plain " " := by decide
  have newline : Plain "\n" := by decide
  have stamp := (opening.append plainTime).append closing
  exact (shows_apply .dim stamp).text blank |>.styled .cyanBold plainPath |>.text newline
    |>.append (.join fun change inside => SizeChange.shows_render (plain change inside))
    |>.text newline

end Watch

/-- Colours never change the text: a coloured report without its display sequences is the report
without colours, and the same holds of the notice about a changed file. -/
theorem Style.strip_coloured :
    (∀ r : Report, (∀ file ∈ r.files, file.IsPlain) →
      strip (r.render true .text) = r.render false .text) ∧
    (∀ (time path : String) (changes : List Watch.SizeChange), Plain time → Plain path →
      (∀ change ∈ changes, Plain change.about) →
      strip (Watch.notice true time path changes) = Watch.notice false time path changes) := by
  constructor
  · intro r plain
    exact (Report.shows_renderText plain).strip_eq
  · intro time path changes plainTime plainPath plain
    exact (Watch.shows_notice plainTime plainPath plain).strip_eq

/-- Two files, one without functions. A name looks like a display sequence but for the escape
character. -/
def mixedReport : Report :=
  ⟨[⟨"a.rs", some "Rust", [⟨"f", 1, 3, 2, .low⟩, ⟨"[31m", 10, 80, 70, .high⟩]⟩, ⟨"b.py", none, []⟩],
    ⟨1, 0, 1, 2⟩⟩

/-- One change of each kind; the function that grew moves up two tiers. -/
def mixedChanges : List Watch.SizeChange :=
  [.added "f" 2 .low, .removed "", .resized "[31m" 7 70 .low .high]

/-- The table keeps its columns and the notice its words. -/
theorem Style.strip_coloured_mixed :
    strip (mixedReport.render true .text) =
      "\na.rs (Rust)\n      1  f        2 LOC  low\n     10  [31m    70 LOC  high\n" ++
        "\nb.py\n  no functions\n\nSummary: 2 functions: 1 low, 0 medium, 1 high\n" ∧
    strip (Watch.notice true "09:30:00" "a.rs" mixedChanges) =
      "[09:30:00] a.rs\n  + f 2 LOC (low)\n  - \n  ~ [31m 7 → 70 LOC (low → high)\n\n" := by
  have first : FileReport.IsPlain
      ⟨"a.rs", some "Rust", [⟨"f", 1, 3, 2, .low⟩, ⟨"[31m", 10, 80, 70, .high⟩]⟩ :=
    ⟨by decide, fun language known => Option.some.inj known ▸ by decide, by decide⟩
  have second : FileReport.IsPlain ⟨"b.py", none, []⟩ := by
    refine ⟨by decide, fun language known => ?_, by decide⟩
    cases known
  have named : ∀ change ∈ mixedChanges, Plain change.about := by decide
  obtain ⟨report, notice⟩ := strip_coloured
  constructor
  · rw [report mixedReport (List.forall_mem_cons.mpr ⟨first, List.forall_mem_singleton.mpr second⟩)]
    decide +kernel
  · rw [notice "09:30:00" "a.rs" mixedChanges (by decide) (by decide) named]
    decide +kernel

end FunctionMeter
