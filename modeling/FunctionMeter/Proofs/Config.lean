import FunctionMeter.Config.Basic
import Mathlib

/-!
# Labels show their count

A label format is a text with placeholders. It may hold several of them, parts of them, and digits
of its own. Filling it puts the digits of a count in the place of every placeholder and keeps all
other characters.

The digits are not characters of the placeholder and there is always one of them, so the characters
around a filled place never join to a new placeholder. A label grows with its digits as often as the
format has placeholders. If it has one, labels of one length therefore have digits of one length,
and the first filled place tells them apart.

Every way to obtain a configuration ends with the check for the placeholder or with the defaults.
-/

namespace FunctionMeter

namespace Label

variable {text cs : List Char}

theorem not_infix_nil : ¬ placeholder <:+: [] :=
  fun inside => absurd (List.infix_nil.mp inside) (by decide)

theorem hasPlaceholder_iff : hasPlaceholder cs = true ↔ placeholder <:+: cs := by
  induction cs with
  | nil => exact ⟨nofun, fun inside => absurd inside not_infix_nil⟩
  | cons c cs ih =>
      rw [hasPlaceholder, Bool.or_eq_true, ih, List.isPrefixOf_iff_prefix, List.infix_cons_iff]

/-! ## Filling -/

theorem fill_placeholder (text rest : List Char) :
    fill text (placeholder ++ rest) = text ++ fill text rest := by
  rw [placeholder]
  exact fill.eq_2 text rest

theorem fill_cons {c : Char} {rest : List Char} (other : ¬ placeholder <+: c :: rest)
    (text : List Char) : fill text (c :: rest) = c :: fill text rest := by
  apply fill.eq_3
  rintro rest' rfl rfl
  exact other ⟨rest', rfl⟩

/-- A format is empty, or starts with a placeholder, or starts with a character that stays. -/
@[elab_as_elim]
theorem format_induction {motive : List Char → Prop} (nil : motive [])
    (place : ∀ rest, motive rest → motive (placeholder ++ rest))
    (kept : ∀ c rest, ¬ placeholder <+: c :: rest → motive rest → motive (c :: rest)) :
    ∀ format, motive format := by
  intro format
  induction format using fill.induct with
  | case1 => exact nil
  | case2 rest ih => exact place rest ih
  | case3 c rest other ih =>
      refine kept c rest ?_ ih
      rintro ⟨rest', same⟩
      obtain ⟨rfl, rfl⟩ := List.cons.inj same
      exact other rest' rfl rfl

theorem infix_cons_iff {c : Char} {rest : List Char} (other : ¬ placeholder <+: c :: rest) :
    placeholder <:+: c :: rest ↔ placeholder <:+: rest := by
  rw [List.infix_cons_iff, or_iff_right other]

/-- The length of a filled format grows with the text by as much as the format has placeholders. -/
theorem exists_length_fill (format : List Char) :
    ∃ kept places, (∀ text, (fill text format).length = kept + places * text.length) ∧
      (0 < places ↔ placeholder <:+: format) := by
  induction format using format_induction with
  | nil =>
      exact ⟨0, 0, fun text => by simp [fill], nofun, fun inside => absurd inside not_infix_nil⟩
  | place rest ih =>
      obtain ⟨kept, places, size, -⟩ := ih
      refine ⟨kept, places + 1, ?_, fun _ => (List.prefix_append _ _).isInfix,
        fun _ => Nat.succ_pos _⟩
      intro text
      rw [fill_placeholder, List.length_append, size]
      ring
  | kept c rest other ih =>
      obtain ⟨kept, places, size, some⟩ := ih
      refine ⟨kept + 1, places, ?_, some.trans (infix_cons_iff other).symm⟩
      intro text
      rw [fill_cons other, List.length_cons, size]
      ring

/-- What is put into a format stands in the result, if there is a place for it. -/
theorem infix_fill {format : List Char} (has : placeholder <:+: format) :
    text <:+: fill text format := by
  induction format using format_induction with
  | nil => exact absurd has not_infix_nil
  | place rest ih =>
      rw [fill_placeholder]
      exact (List.prefix_append _ _).isInfix
  | kept c rest other ih =>
      rw [fill_cons other]
      exact (ih ((infix_cons_iff other).mp has)).trans (List.suffix_cons c _).isInfix

/-- Texts of one length that fill a format alike are the same. -/
theorem eq_of_fill_of_length {format t u : List Char} (size : t.length = u.length)
    (has : placeholder <:+: format) (same : fill t format = fill u format) : t = u := by
  induction format using format_induction with
  | nil => exact absurd has not_infix_nil
  | place rest ih =>
      rw [fill_placeholder, fill_placeholder] at same
      exact (List.append_inj same size).1
  | kept c rest other ih =>
      rw [fill_cons other, fill_cons other] at same
      exact ih ((infix_cons_iff other).mp has) (List.cons.inj same).2

theorem eq_of_fill {format t u : List Char} (has : placeholder <:+: format)
    (same : fill t format = fill u format) : t = u := by
  obtain ⟨kept, places, size, some⟩ := exists_length_fill format
  have lengths : kept + places * t.length = kept + places * u.length := by
    rw [← size t, ← size u, same]
  have equal : t.length = u.length :=
    Nat.eq_of_mul_eq_mul_left (some.mpr has) (Nat.add_left_cancel lengths)
  exact eq_of_fill_of_length equal has same

/-! ## No new placeholder -/

/-- A text of at least one character, none of which is in the placeholder. -/
structure Foreign (text : List Char) : Prop where
  nonempty : text ≠ []
  apart : ∀ c ∈ text, c ∉ placeholder

/-- A part of the placeholder that begins a filled format has begun the format. -/
theorem prefix_of_prefix_fill (foreign : Foreign text) {part format : List Char}
    (within : part ⊆ placeholder) (begins : part <+: fill text format) : part <+: format := by
  induction part generalizing format with
  | nil => exact List.nil_prefix
  | cons a part ih =>
      obtain ⟨own, within⟩ := List.cons_subset.mp within
      cases format using format_induction with
      | nil => exact begins
      | place rest ignored =>
          obtain ⟨c, text, rfl⟩ := List.exists_cons_of_ne_nil foreign.nonempty
          rw [fill_placeholder, List.cons_append, List.cons_prefix_cons] at begins
          exact absurd (begins.1 ▸ own) (foreign.apart c List.mem_cons_self)
      | kept c rest other ignored =>
          rw [fill_cons other, List.cons_prefix_cons] at begins
          exact List.cons_prefix_cons.mpr ⟨begins.1, ih within begins.2⟩

theorem not_prefix_fill (foreign : Foreign text) (format : List Char) :
    ¬ placeholder <+: fill text format := by
  intro begins
  obtain ⟨rest, rfl⟩ := prefix_of_prefix_fill foreign (List.Subset.refl _) begins
  obtain ⟨c, text, rfl⟩ := List.exists_cons_of_ne_nil foreign.nonempty
  rw [fill_placeholder, List.cons_append, placeholder, List.cons_prefix_cons] at begins
  exact foreign.apart c List.mem_cons_self (begins.1 ▸ List.mem_cons_self)

theorem not_infix_append {rest : List Char} (apart : ∀ c ∈ text, c ∉ placeholder)
    (without : ¬ placeholder <:+: rest) : ¬ placeholder <:+: text ++ rest := by
  induction text with
  | nil => exact without
  | cons c text ih =>
      obtain ⟨first, apart⟩ := List.forall_mem_cons.mp apart
      rw [List.cons_append, List.infix_cons_iff, not_or]
      refine ⟨fun begins => ?_, ih apart⟩
      rw [placeholder, List.cons_prefix_cons] at begins
      exact first (begins.1 ▸ List.mem_cons_self)

/-- A filled format has no placeholder left, and none has come up. -/
theorem not_infix_fill (foreign : Foreign text) (format : List Char) :
    ¬ placeholder <:+: fill text format := by
  induction format using format_induction with
  | nil => exact not_infix_nil
  | place rest ih =>
      rw [fill_placeholder]
      exact not_infix_append foreign.apart ih
  | kept c rest other ih =>
      have begins := not_prefix_fill foreign (c :: rest)
      rw [fill_cons other] at begins ⊢
      exact fun inside => ih ((infix_cons_iff begins).mp inside)

theorem foreign_toDigits (n : Nat) : Foreign (Nat.toDigits 10 n) := by
  refine ⟨Nat.toDigits_ne_nil, fun c digit inside => ?_⟩
  have isDigit := Nat.isDigit_of_mem_toDigits (by decide) (by decide) digit
  have none : ∀ c ∈ placeholder, c.isDigit = false := by simp [placeholder]
  rw [none c inside] at isDigit
  cases isDigit

end Label

namespace Config

variable {config : Config}

theorem toList_label (config : Config) (loc : UInt32) :
    (config.label loc).toList =
      Label.fill (Nat.toDigits 10 loc.toNat) config.display.labelFormat.toList := by
  rw [label, String.toList_ofList, Nat.toList_repr]

/-- A configuration that a program can get: read from TOML or from JSON, or loaded from candidates,
of which any may be missing. -/
inductive Obtained : Config → Prop
  | toml {config : Config} (text : String) (read : ofToml text = .ok config) : Obtained config
  | json {config : Config} (j : Json) (read : ofJson j = .ok config) : Obtained config
  | loaded (candidates : List (Option String)) : Obtained (load candidates)

theorem placeholder_default : Label.placeholder <:+: default.display.labelFormat.toList :=
  Label.hasPlaceholder_iff.mp (by decide)

theorem placeholder_of_checkDecoded {decoded : Option Config}
    (read : checkDecoded decoded = .ok config) :
    Label.placeholder <:+: config.display.labelFormat.toList := by
  cases decoded with
  | none => cases read
  | some decoded =>
      rw [checkDecoded, check] at read
      split at read
      · rename_i has
        obtain rfl := Except.ok.inj read
        exact Label.hasPlaceholder_iff.mp has
      · cases read

theorem placeholder_of_ofToml {text : String} (read : ofToml text = .ok config) :
    Label.placeholder <:+: config.display.labelFormat.toList :=
  placeholder_of_checkDecoded read

theorem placeholder_of_ofJson {j : Json} (read : ofJson j = .ok config) :
    Label.placeholder <:+: config.display.labelFormat.toList := by
  unfold ofJson at read
  split at read
  · obtain rfl := Except.ok.inj read
    exact placeholder_default
  · exact placeholder_of_checkDecoded read

theorem placeholder_load (candidates : List (Option String)) :
    Label.placeholder <:+: (load candidates).display.labelFormat.toList := by
  rw [load]
  cases found : candidates.findSome? fun text => text.bind fun text => (ofToml text).toOption with
  | none => exact placeholder_default
  | some config =>
      obtain ⟨candidate, -, accepted⟩ := List.exists_of_findSome?_eq_some found
      obtain ⟨text, -, accepted⟩ := Option.bind_eq_some_iff.mp accepted
      cases read : ofToml text with
      | error refusal =>
          rw [read] at accepted
          cases accepted
      | ok other =>
          rw [read] at accepted
          obtain rfl := Option.some.inj accepted
          exact placeholder_of_ofToml read

theorem Obtained.placeholder (obtained : Obtained config) :
    Label.placeholder <:+: config.display.labelFormat.toList := by
  cases obtained with
  | toml text read => exact placeholder_of_ofToml read
  | json j read => exact placeholder_of_ofJson read
  | loaded candidates => exact placeholder_load candidates

/-- However a configuration was obtained, its label format has the placeholder. Its labels tell all
counts apart; each holds the decimal digits of its count, and no placeholder. -/
theorem labels_of_obtained (config : Config) (obtained : Obtained config) :
    Label.placeholder <:+: config.display.labelFormat.toList ∧
      (∀ m n, config.label m = config.label n → m = n) ∧
      ∀ loc, Nat.toDigits 10 loc.toNat <:+: (config.label loc).toList ∧
        ¬ Label.placeholder <:+: (config.label loc).toList := by
  refine ⟨obtained.placeholder, ?_, ?_⟩
  · intro m n same
    have filled := congrArg String.toList same
    rw [toList_label, toList_label] at filled
    have digits := Label.eq_of_fill obtained.placeholder filled
    apply UInt32.toNat_inj.mp
    calc m.toNat = Nat.ofDigitChars 10 (Nat.toDigits 10 m.toNat) 0 :=
          Nat.ofDigitChars_ten_toDigits.symm
      _ = Nat.ofDigitChars 10 (Nat.toDigits 10 n.toNat) 0 := by rw [digits]
      _ = n.toNat := Nat.ofDigitChars_ten_toDigits
  · intro loc
    rw [toList_label]
    exact ⟨Label.infix_fill obtained.placeholder,
      Label.not_infix_fill (Label.foreign_toDigits loc.toNat) _⟩

/-- The format has two placeholders, one of them inside the parts of a third, and digits. -/
def brokenBraces : Json :=
  .obj [("display", .obj [("label_format", .str "1\x7blo\x7bloc\x7dc\x7d \x7bloc\x7d")])]

theorem labels_of_obtained_brokenBraces :
    ∃ config, ofJson brokenBraces = .ok config ∧
      config.label 1 = "1\x7blo1c\x7d 1" ∧
      ¬ Label.placeholder <:+: (config.label 11).toList ∧ config.label 1 ≠ config.label 11 := by
  have read : ofJson brokenBraces =
      .ok ⟨⟨true, true, "1\x7blo\x7bloc\x7dc\x7d \x7bloc\x7d"⟩, Colours.default⟩ := rfl
  obtain ⟨-, injective, shown⟩ := labels_of_obtained _ (.json brokenBraces read)
  refine ⟨_, read, by decide, (shown 11).2, fun same => ?_⟩
  exact absurd (injective 1 11 same) (by decide)

end Config

end FunctionMeter
