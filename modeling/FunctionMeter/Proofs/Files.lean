import FunctionMeter.Command.Basic
import FunctionMeter.Proofs.Text.Case
import Mathlib

/-!
# Names of files

A path that leads to a file ends in the name of the file, since nothing can follow a file in a path.
The URI of the file ends in the same name with some characters escaped. No extension of a supported
language has such characters, nor one that is the small form of a character beyond ASCII, so that a
file and its document are of one language. Only where a name has its one dot in front does the path
give no extension.
-/

namespace FunctionMeter

/-! ## Paths to files -/

namespace Entry

theorem at?_append (e : Entry) (names more : List String) :
    e.at? (names ++ more) = (e.at? names).bind (·.at? more) := by
  induction names generalizing e with
  | nil => rfl
  | cons name names ih =>
      rw [List.cons_append, at?, at?, Option.bind_assoc]
      exact congrArg _ (funext fun child => ih child)

/-- Above an entry there is a directory. -/
theorem exists_directory_dropLast {e : Entry} {names : List String}
    {entries : List (String × Entry)} (here : e.at? names = some (.directory entries)) :
    ∃ above, e.at? names.dropLast = some (.directory above) := by
  induction names using List.reverseRecOn with
  | nil => exact ⟨entries, here⟩
  | append_singleton names name =>
      rw [List.dropLast_concat]
      rw [at?_append, Option.bind_eq_some_iff] at here
      obtain ⟨parent, found, child⟩ := here
      cases parent with
      | directory above => exact ⟨above, found⟩
      | file content root => cases child

end Entry

theorem Path.fileName?_of_pieces {path : String} {before : List String} {piece : String}
    (ends : pieces path = before ++ [piece]) (normal : inner? piece = some (.normal piece)) :
    fileName? path = some piece := by
  have last : (components path).getLast? = some (.normal piece) := by
    simp only [components, ends, List.filterMap_append, List.filterMap_cons_some normal,
      List.filterMap_nil]
    split_ifs
    · rw [← List.cons_append, List.getLast?_concat]
    · rw [← List.cons_append, List.getLast?_concat]
    · rw [List.getLast?_concat]
  rw [fileName?, last]

namespace Files

theorem follow_append (root : Entry) (names before more : List String) :
    follow root names (before ++ more) =
      (follow root names before).bind fun names => follow root names more := by
  induction before generalizing names with
  | nil => rfl
  | cons piece before ih =>
      simp only [List.cons_append, follow]
      split
      · split_ifs
        · exact ih _
        · exact ih _
        · exact ih _
        · rfl
      · rfl

/-- The last step to a file takes an ordinary name: every other step leads to a directory. -/
theorem follow_eq_file {root : Entry} {names names' : List String} {piece : String}
    {content : Content} {tree : Option Node}
    (followed : follow root names [piece] = some names')
    (file : root.at? names' = some (.file content tree)) :
    Path.inner? piece = some (.normal piece) ∧ names'.getLast? = some piece := by
  simp only [follow] at followed
  split at followed
  · rename_i entries here
    split_ifs at followed with stays up there
    · cases followed
      cases here.symm.trans file
    · cases followed
      obtain ⟨above, found⟩ := Entry.exists_directory_dropLast here
      cases found.symm.trans file
    · cases followed
      rw [Path.inner?, if_neg stays, if_neg up, List.getLast?_concat]
      exact ⟨rfl, rfl⟩
  · cases followed

/-- A path to a file ends in the name of the file. -/
theorem exists_name_of_resolve? {files : Files} {path : String} {names : List String}
    {content : Content} {tree : Option Node} (resolved : files.resolve? path = some names)
    (file : files.root.at? names = some (.file content tree)) :
    ∃ name, Path.fileName? path = some name ∧ names.getLast? = some name := by
  obtain ⟨before, piece, ends⟩ : ∃ before piece, Path.pieces path = before ++ [piece] := by
    refine ⟨_, _, (List.dropLast_append_getLast ?_).symm⟩
    simp [Path.pieces]
  rw [resolve?] at resolved
  split at resolved
  · cases resolved
  rw [ends, follow_append, Option.bind_eq_some_iff] at resolved
  obtain ⟨directory, -, followed⟩ := resolved
  obtain ⟨normal, last⟩ := follow_eq_file followed file
  exact ⟨piece, Path.fileName?_of_pieces ends normal, last⟩

end Files

/-! ## Names in URIs -/

namespace Uri

/-- The characters of a name that are escaped when it becomes a segment of a path. -/
def escapedInName (c : Char) : Bool := escapedInPath c || c == '/' || c == '%'

def segment (name : String) : List Char := percentEncode escapedInName name.toList

theorem path_ofFilePath {names : List String} (any : names ≠ []) :
    (ofFilePath names).path = String.ofList (names.flatMap fun name => '/' :: segment name) := by
  simp only [ofFilePath, List.isEmpty_iff, any, if_false]
  rfl

/-- Escapes are made of percent signs and digits. -/
theorem not_mem_escapeChar {mark : Char} (other : mark ≠ '%')
    (digits : ∀ k < 16, (Nat.digitChar k).toUpper ≠ mark) (c : Char) : mark ∉ escapeChar c := by
  have digit (n : Nat) : hexUpper n ≠ mark := digits (n % 16) (Nat.mod_lt n (by decide))
  intro inside
  obtain ⟨byte, -, inside⟩ := List.mem_flatMap.mp inside
  simp only [escapeByte, List.mem_cons, List.not_mem_nil, or_false] at inside
  rcases inside with sign | high | low
  · exact other sign
  · exact digit _ high.symm
  · exact digit _ low.symm

theorem percent_mem_escapeChar (c : Char) : '%' ∈ escapeChar c := by
  obtain ⟨byte, bytes, same⟩ := List.exists_cons_of_ne_nil (String.utf8EncodeChar_ne_nil (c := c))
  simp [escapeChar, same, escapeByte]

theorem slash_not_mem_segment (name : String) : '/' ∉ segment name := by
  intro inside
  obtain ⟨c, -, inside⟩ := List.mem_flatMap.mp inside
  split at inside
  · exact not_mem_escapeChar (by decide) (by decide) c inside
  · rename_i plain
    rw [← List.mem_singleton.mp inside] at plain
    exact plain (by decide)

theorem dot_not_mem_percentEncode {escaped : Char → Bool} {cs : List Char} (without : '.' ∉ cs) :
    '.' ∉ percentEncode escaped cs := by
  intro inside
  obtain ⟨c, member, inside⟩ := List.mem_flatMap.mp inside
  split at inside
  · exact not_mem_escapeChar (by decide) (by decide) c inside
  · rw [List.mem_singleton.mp inside] at without
    exact without member

theorem percentEncode_of_plain {escaped : Char → Bool} {cs : List Char}
    (plain : ∀ c ∈ cs, escaped c = false) : percentEncode escaped cs = cs := by
  induction cs with
  | nil => rfl
  | cons c cs ih =>
      obtain ⟨first, others⟩ := List.forall_mem_cons.mp plain
      rw [percentEncode, List.flatMap_cons, first]
      exact congrArg (c :: ·) (ih others)

/-- What follows the last occurrence of a mark. -/
theorem reverse_takeWhile_reverse {mark : Char} {tail : List Char} (last : mark ∉ tail)
    (front : List Char) :
    ((front ++ mark :: tail).reverse.takeWhile (· != mark)).reverse = tail := by
  have others : ∀ c ∈ tail.reverse, (c != mark) = true := by
    intro c inside
    rw [bne_iff_ne]
    rintro rfl
    exact last (List.mem_reverse.mp inside)
  rw [List.reverse_append, List.reverse_cons, List.append_assoc, List.takeWhile_append_of_pos others]
  simp

/-- The last segment of a file's URI is the name of the file. -/
theorem lastSegment_ofFilePath {names : List String} {name : String}
    (last : names.getLast? = some name) :
    ((ofFilePath names).path.toList.reverse.takeWhile (· != '/')).reverse = segment name := by
  obtain ⟨above, rfl⟩ := List.getLast?_eq_some_iff.mp last
  rw [path_ofFilePath (by simp), String.toList_ofList, List.flatMap_append, List.flatMap_singleton,
    reverse_takeWhile_reverse (slash_not_mem_segment name)]

/-- The extension of a file's URI is that of its name, escaped and in small letters. -/
theorem extension_ofFilePath {names : List String} {name : String} {stem ending : List Char}
    (last : names.getLast? = some name) (dotted : name.toList = stem ++ '.' :: ending)
    (short : '.' ∉ ending) :
    (ofFilePath names).extension =
      some (Category.fold (String.ofList (percentEncode escapedInName ending))) := by
  have written : segment name =
      percentEncode escapedInName stem ++ '.' :: percentEncode escapedInName ending := by
    rw [segment, dotted, percentEncode, List.flatMap_append, List.flatMap_cons]
    rfl
  rw [extension, lastSegment_ofFilePath last, written,
    reverse_takeWhile_reverse (dot_not_mem_percentEncode short), if_pos (by simp), Category.fold,
    String.toList_ofList]

theorem extension_ofFilePath_of_flat {names : List String} {name : String}
    (last : names.getLast? = some name) (flat : '.' ∉ name.toList) :
    (ofFilePath names).extension = none := by
  rw [extension, lastSegment_ofFilePath last]
  apply if_neg
  rw [List.contains_iff_mem]
  exact dot_not_mem_percentEncode flat

end Uri

/-! ## Extensions of names -/

namespace Path

/-- The only dot of a name is its first character. -/
def IsDotName (name : String) : Prop :=
  name.toList.head? = some '.' ∧ '.' ∉ name.toList.tail

instance (name : String) : Decidable (IsDotName name) :=
  inferInstanceAs (Decidable (name.toList.head? = some '.' ∧ '.' ∉ name.toList.tail))

theorem exists_last_dot {name : String} (dotted : '.' ∈ name.toList) :
    ∃ stem ending, name.toList = stem ++ '.' :: ending ∧ '.' ∉ ending := by
  obtain ⟨after, before, same, first⟩ :=
    List.eq_append_cons_of_mem (List.mem_reverse.mpr dotted)
  refine ⟨before.reverse, after.reverse, ?_, fun inside => first (List.mem_reverse.mp inside)⟩
  rw [← List.reverse_reverse name.toList, same]
  simp

theorem nameExtension?_of_flat {name : String} (flat : '.' ∉ name.toList) :
    nameExtension? name = none := by
  have none : name.toList.reverse.dropWhile (· != '.') = [] := by
    rw [List.dropWhile_eq_nil_iff]
    intro c inside
    rw [bne_iff_ne]
    rintro rfl
    exact flat (List.mem_reverse.mp inside)
  simp only [nameExtension?, none]

/-- A name has an extension where its last dot is not its first character. -/
theorem nameExtension?_of_dotted {name : String} {stem ending : List Char}
    (dotted : name.toList = stem ++ '.' :: ending) (short : '.' ∉ ending) :
    nameExtension? name = if stem = [] then none else some (String.ofList ending) := by
  have others : ∀ c ∈ ending.reverse, (c != '.') = true := by
    intro c inside
    rw [bne_iff_ne]
    rintro rfl
    exact short (List.mem_reverse.mp inside)
  have behind : name.toList.reverse.dropWhile (· != '.') = '.' :: stem.reverse := by
    rw [dotted, List.reverse_append, List.reverse_cons, List.append_assoc,
      List.dropWhile_append_of_pos others]
    rfl
  have after := Uri.reverse_takeWhile_reverse short stem
  rw [← dotted] at after
  simp only [nameExtension?, behind, after]
  cases stem using List.reverseRecOn with
  | nil => rfl
  | append_singleton stem c => simp

theorem isDotName_iff {name : String} {stem ending : List Char}
    (dotted : name.toList = stem ++ '.' :: ending) (short : '.' ∉ ending) :
    IsDotName name ↔ stem = [] := by
  rw [IsDotName, dotted]
  cases stem with
  | nil => simp [short]
  | cons c stem => simp

end Path

/-! ## The language of a file -/

/-- What becomes a letter or a plus sign in small letters is such a character itself. -/
theorem Uri.not_escapedInName {c : Char} (plain : c.toLower.isLower ∨ c.toLower = '+') :
    escapedInName c = false := by
  by_cases ascii : c.toNat < 128
  · have each : ∀ n < 128, ((Char.ofNat n).toLower.isLower ∨ (Char.ofNat n).toLower = '+') →
        escapedInName (Char.ofNat n) = false := by decide +kernel
    have own := each c.toNat ascii
    rw [Char.ofNat_toNat] at own
    exact own plain
  · rw [Text.toLower_of_beyond (Nat.not_lt.mp ascii)] at plain
    rcases plain with lower | rfl
    · have bound : c.val ≤ 'z'.val := of_decide_eq_true (Bool.and_eq_true_iff.mp lower).2
      exact absurd ((UInt32.le_iff_toNat_le.mp bound).trans_lt (by decide)) ascii
    · exact absurd (by decide) ascii

namespace Language

/-- The characters of an extension by which a language is known are among those of the list. -/
theorem forall_of_ofExtension? {p : Char → Prop} (each : ∀ e ∈ byExtension, ∀ c ∈ e.1.toList, p c)
    {extension : String} {language : Language} (known : ofExtension? extension = some language) :
    ∀ c ∈ extension.toList, p c := by
  obtain ⟨before, after, split, -⟩ := List.lookup_eq_some_iff.mp known
  exact each (extension, language) (split ▸ List.mem_append_right before List.mem_cons_self)

theorem plain_of_ofExtension? {extension : String} {language : Language}
    (known : ofExtension? extension = some language) :
    ∀ c ∈ extension.toList, c.isLower ∨ c = '+' :=
  forall_of_ofExtension? (by simp [byExtension]) known

theorem isOrdinary_of_ofExtension? {extension : String} {language : Language}
    (known : ofExtension? extension = some language) :
    ∀ c ∈ extension.toList, Text.IsOrdinary c :=
  forall_of_ofExtension? (by simp [byExtension, Text.IsOrdinary]) known

/-- For known extensions the small letters beyond ASCII make no difference. -/
theorem ofExtension?_lower (ending : String) :
    ofExtension? (Text.lower ending) = ofExtension? (Category.fold ending) := by
  cases known : ofExtension? (Text.lower ending) with
  | some language =>
      rw [← Text.lower_of_isOrdinary (isOrdinary_of_ofExtension? known), known]
  | none =>
      cases folded : ofExtension? (Category.fold ending) with
      | none => rfl
      | some language =>
          have ordinary := isOrdinary_of_ofExtension? folded
          rw [Category.fold, String.toList_ofList, List.forall_mem_map] at ordinary
          have same := Text.lower_of_ascii fun c inside => Text.ascii_of_toLower (ordinary c inside).1
          rw [same, folded] at known
          cases known

/-- For known extensions escapes make no difference: none of them has a percent sign, and none of
their characters is escaped. -/
theorem ofExtension?_encoded (ending : List Char) :
    ofExtension? (Category.fold (String.ofList (Uri.percentEncode Uri.escapedInName ending))) =
      ofExtension? (Category.fold (String.ofList ending)) := by
  by_cases plain : ∀ c ∈ ending, Uri.escapedInName c = false
  · rw [Uri.percentEncode_of_plain plain]
  · obtain ⟨c, inside, escaped⟩ : ∃ c ∈ ending, Uri.escapedInName c = true := by simpa using plain
    have encoded : '%' ∈ Uri.percentEncode Uri.escapedInName ending := by
      refine List.mem_flatMap.mpr ⟨c, inside, ?_⟩
      rw [if_pos escaped]
      exact Uri.percent_mem_escapeChar c
    have left : ofExtension? (Category.fold
        (String.ofList (Uri.percentEncode Uri.escapedInName ending))) = none := by
      rw [Option.eq_none_iff_forall_ne_some]
      intro language known
      have letters := plain_of_ofExtension? known
      rw [Category.fold, String.toList_ofList, String.toList_ofList, List.forall_mem_map] at letters
      exact absurd (letters '%' encoded) (by decide)
    have right : ofExtension? (Category.fold (String.ofList ending)) = none := by
      rw [Option.eq_none_iff_forall_ne_some]
      intro language known
      have letters := plain_of_ofExtension? known
      rw [Category.fold, String.toList_ofList, String.toList_ofList, List.forall_mem_map] at letters
      rw [Uri.not_escapedInName (letters c inside)] at escaped
      cases escaped
    rw [left, right]

end Language

namespace Command

variable {path name text : String} {names : List String}

/-- A path by whose name no language is recognised, since its dot only hides it. -/
theorem languageOf_of_isDotName (named : Path.fileName? path = some name)
    (hidden : Path.IsDotName name) : languageOf path = none := by
  obtain ⟨stem, ending, split, short⟩ := Path.exists_last_dot (List.mem_of_head? hidden.1)
  rw [Path.isDotName_iff split short] at hidden
  rw [languageOf, Path.extension?, named, Option.bind_some,
    Path.nameExtension?_of_dotted split short, if_pos hidden, Option.bind_none]

/-- A path and a document whose names end alike are of one language. -/
theorem language?_document_of_name (named : Path.fileName? path = some name)
    (last : names.getLast? = some name) (visible : ¬ Path.IsDotName name) :
    (document names text).language? = languageOf path := by
  rw [languageOf, Path.extension?, named, Option.bind_some, Document.language?, Document.extension,
    document]
  by_cases dotted : '.' ∈ name.toList
  · obtain ⟨stem, ending, split, short⟩ := Path.exists_last_dot dotted
    rw [Path.isDotName_iff split short] at visible
    rw [Uri.extension_ofFilePath last split short, Path.nameExtension?_of_dotted split short,
      if_neg visible, Option.bind_some, Option.bind_some, Language.ofExtension?_lower,
      Language.ofExtension?_encoded]
  · rw [Uri.extension_ofFilePath_of_flat last dotted, Path.nameExtension?_of_flat dotted,
      Option.bind_none, Option.bind_none]

/-- A file and its document are of one language. -/
theorem language?_document {files : Files} {content : Content} {tree : Option Node}
    {language : Language} (resolved : files.resolve? path = some names)
    (file : files.root.at? names = some (.file content tree))
    (supported : languageOf path = some language) :
    (document names text).language? = some language := by
  obtain ⟨name, named, last⟩ := Files.exists_name_of_resolve? resolved file
  rw [language?_document_of_name named last, supported]
  intro hidden
  cases supported.symm.trans (languageOf_of_isDotName named hidden)

end Command

end FunctionMeter
