import FunctionMeter.Json.Reader
import Mathlib

/-!
# The grammar of JSON

`Spells` says which texts stand for a value. White space may surround everything inside brackets and
braces, a character of a string may be escaped in more than one way, and a number that is no integer
is kept as it is written. Numbers beyond the range of a double and escapes of half a character are
left out.

The reader accepts every text of the grammar that does not nest too deep, and with the value that
the grammar gives it. Each part of the reader is followed by what it leaves unread, so that the parts
fit together. A reader that goes deeper reads what another one reads, so no reader gives a text of
the grammar any other value.
-/

namespace FunctionMeter.Json

/-- White space that means nothing. -/
def Blank (cs : List Char) : Prop := ∀ c ∈ cs, isSpace c = true

/-! ## Strings -/

/-- The letters that may stand behind a backslash, and what they stand for. -/
def escapeLetters : List (Char × Char) :=
  [('"', '"'), ('\\', '\\'), ('/', '/'), ('b', '\x08'), ('f', '\x0c'), ('n', '\n'), ('r', '\r'),
    ('t', '\t')]

/-- How a character may stand between the quotes of a string. -/
inductive SpellsChar : Char → List Char → Prop
  | plain {c : Char} (printable : 0x20 ≤ c.toNat) (quote : c ≠ '"') (backslash : c ≠ '\\') :
      SpellsChar c [c]
  | letter {l c : Char} (listed : (l, c) ∈ escapeLetters) : SpellsChar c ['\\', l]
  | unit {a b c d : Char} {u : Nat} (quad : hexQuad? a b c d = some u)
      (whole : isHighSurrogate u = false ∧ isLowSurrogate u = false) :
      SpellsChar (Char.ofNat u) ['\\', 'u', a, b, c, d]
  | pair {a b c d e f g h : Char} {u v : Nat} (first : hexQuad? a b c d = some u)
      (high : isHighSurrogate u = true) (second : hexQuad? e f g h = some v)
      (low : isLowSurrogate v = true) :
      SpellsChar (Char.ofNat (0x10000 + (u - 0xD800) * 0x400 + (v - 0xDC00)))
        ['\\', 'u', a, b, c, d, '\\', 'u', e, f, g, h]

/-- The inside of a string. -/
inductive SpellsText : List Char → List Char → Prop
  | nil : SpellsText [] []
  | cons {c : Char} {s cs ds : List Char} (first : SpellsChar c cs) (rest : SpellsText s ds) :
      SpellsText (c :: s) (cs ++ ds)

theorem shortEscape?_of_listed {l c : Char} (listed : (l, c) ∈ escapeLetters) :
    l ≠ 'u' ∧ shortEscape? l = some c := by
  simp only [escapeLetters, List.mem_cons, Prod.mk.injEq, List.not_mem_nil, or_false] at listed
  rcases listed with ⟨rfl, rfl⟩ | ⟨rfl, rfl⟩ | ⟨rfl, rfl⟩ | ⟨rfl, rfl⟩ | ⟨rfl, rfl⟩ | ⟨rfl, rfl⟩ |
    ⟨rfl, rfl⟩ | ⟨rfl, rfl⟩ <;> exact ⟨by decide, rfl⟩

theorem readString?_char {c : Char} {cs : List Char} (spelled : SpellsChar c cs)
    (rest : List Char) :
    readString? (cs ++ rest) =
      (readString? rest).map fun (s, tail) => (c :: s, tail) := by
  cases spelled with
  | plain printable quote backslash =>
      have visible : ¬ c.toNat < 0x20 := Nat.not_lt.mpr printable
      simp [readString?, backslash, visible]
  | @letter l _ listed =>
      obtain ⟨hex, escape⟩ := shortEscape?_of_listed listed
      simp [readString?, hex, escape]
  | unit quad whole => simp [readString?, quad, whole]
  | pair first high second low => simp [readString?, first, high, second, low]

theorem readString?_text {s cs : List Char} (spelled : SpellsText s cs) (rest : List Char) :
    readString? (cs ++ '"' :: rest) = some (s, rest) := by
  induction spelled with
  | nil => simp [readString?]
  | cons first more ih => rw [List.append_assoc, readString?_char first, ih, Option.map_some]

/-! ## Numbers -/

/-- The first character, if there is one, is not of a class. -/
def Avoids (class? : Char → Bool) (cs : List Char) : Prop := ∀ c ∈ cs.head?, class? c = false

/-- Digits before the point: a zero that stands alone, or digits that do not start with one. -/
inductive WholeDigits : List Char → Prop
  | zero : WholeDigits ['0']
  | positive {d : Char} {ds : List Char} (lead : d ≠ '0')
      (digits : ∀ c ∈ d :: ds, c.isDigit = true) : WholeDigits (d :: ds)

/-- A point and at least one digit, or nothing. -/
inductive SpellsFraction : Option (List Char) → List Char → Prop
  | absent : SpellsFraction none []
  | digits {ds : List Char} (any : ds ≠ []) (digits : ∀ c ∈ ds, c.isDigit = true) :
      SpellsFraction (some ds) ('.' :: ds)

/-- An exponent with or without a sign, or nothing. -/
inductive SpellsExponent : Option Int → List Char → Prop
  | absent : SpellsExponent none []
  | digits {e : Char} {sign ds : List Char} (mark : e = 'e' ∨ e = 'E')
      (signed : sign = [] ∨ sign = ['+'] ∨ sign = ['-']) (any : ds ≠ [])
      (digits : ∀ c ∈ ds, c.isDigit = true) :
      SpellsExponent
        (some (if sign = ['-'] then -(digitsValue ds : Int) else digitsValue ds)) (e :: (sign ++ ds))

theorem ne_of_isDigit {c d : Char} (digit : c.isDigit = true) (other : d.isDigit = false) :
    c ≠ d := by
  rintro rfl
  exact Bool.false_ne_true (other.symm.trans digit)

theorem takeWhile_append_of_avoids {p : Char → Bool} {ds rest : List Char}
    (inside : ∀ c ∈ ds, p c = true) (outside : Avoids p rest) :
    (ds ++ rest).takeWhile p = ds ∧ (ds ++ rest).dropWhile p = rest := by
  rw [List.takeWhile_append_of_pos inside, List.dropWhile_append_of_pos inside]
  cases rest with
  | nil => simp
  | cons c cs => simp [outside c rfl]

theorem readWhole?_digits {ds rest : List Char} (spelled : WholeDigits ds)
    (ends : Avoids Char.isDigit rest) : readWhole? (ds ++ rest) = some (ds, rest) := by
  cases spelled with
  | zero =>
      cases rest with
      | nil => rfl
      | cons c cs => simp [readWhole?, ends c rfl]
  | @positive d ds lead digits =>
      obtain ⟨taken, left⟩ := takeWhile_append_of_avoids digits ends
      rw [List.cons_append] at taken left ⊢
      simp [readWhole?, lead, taken, left]

theorem readFraction?_digits {fraction : Option (List Char)} {fs rest : List Char}
    (spelled : SpellsFraction fraction fs) (point : Avoids (· == '.') rest)
    (ends : Avoids Char.isDigit rest) : readFraction? (fs ++ rest) = some (fraction, rest) := by
  cases spelled with
  | absent =>
      cases rest with
      | nil => rfl
      | cons c cs =>
          have other : c ≠ '.' := by simpa using point c rfl
          simp [readFraction?, other]
  | @digits ds any digits =>
      obtain ⟨taken, left⟩ := takeWhile_append_of_avoids digits ends
      simp [readFraction?, taken, left, any]

theorem readExponentDigits?_digits {ds rest : List Char} (negative : Bool) (any : ds ≠ [])
    (digits : ∀ c ∈ ds, c.isDigit = true) (ends : Avoids Char.isDigit rest) :
    readExponentDigits? negative (ds ++ rest) =
      some (some (if negative then -(digitsValue ds : Int) else digitsValue ds), rest) := by
  obtain ⟨taken, left⟩ := takeWhile_append_of_avoids digits ends
  simp [readExponentDigits?, taken, left, any]

theorem readExponent?_digits {exponent : Option Int} {es rest : List Char}
    (spelled : SpellsExponent exponent es) (mark : Avoids (fun c => c == 'e' || c == 'E') rest)
    (ends : Avoids Char.isDigit rest) : readExponent? (es ++ rest) = some (exponent, rest) := by
  cases spelled with
  | absent =>
      cases rest with
      | nil => rfl
      | cons c cs =>
          have other := mark c rfl
          simp only [List.nil_append, readExponent?, other, Bool.false_eq_true, if_false]
  | @digits e sign ds marked signed any digits =>
      have letter : (e == 'e' || e == 'E') = true := by rcases marked with rfl | rfl <;> rfl
      rcases signed with rfl | rfl | rfl
      · obtain ⟨d, ds, rfl⟩ := List.exists_cons_of_ne_nil any
        have digit := digits d List.mem_cons_self
        have plus : d ≠ '+' := ne_of_isDigit digit rfl
        have minus : d ≠ '-' := ne_of_isDigit digit rfl
        simpa [readExponent?, letter, plus, minus] using
          readExponentDigits?_digits false any digits ends
      · simpa [readExponent?, letter] using readExponentDigits?_digits false any digits ends
      · simpa [readExponent?, letter] using readExponentDigits?_digits true any digits ends

/-- A number. One with a point or an exponent is kept as it is written, and so is the negative zero,
which no integer is meant by. -/
inductive SpellsNumber : Json → List Char → Prop
  | natural {ds : List Char} (digits : WholeDigits ds) (finite : fitsDouble ds [] 0 = true) :
      SpellsNumber (.int (digitsValue ds)) ds
  | negative {ds : List Char} (digits : WholeDigits ds) (nonzero : digitsValue ds ≠ 0)
      (finite : fitsDouble ds [] 0 = true) :
      SpellsNumber (.int (-(digitsValue ds : Int))) ('-' :: ds)
  | negativeZero : SpellsNumber (.real "-0") ['-', '0']
  | real {sign whole fs es : List Char} {fraction : Option (List Char)} {exponent : Option Int}
      (signed : sign = [] ∨ sign = ['-']) (digits : WholeDigits whole)
      (point : SpellsFraction fraction fs) (power : SpellsExponent exponent es)
      (parted : fraction.isSome ∨ exponent.isSome)
      (finite : fitsDouble whole (fraction.getD []) (exponent.getD 0) = true) :
      SpellsNumber (.real (String.ofList (sign ++ (whole ++ (fs ++ es)))))
        (sign ++ (whole ++ (fs ++ es)))

/-- Nothing follows that would go on with a number. -/
def Ends (cs : List Char) : Prop :=
  Avoids (fun c => c.isDigit || c == '.' || c == 'e' || c == 'E') cs

theorem Avoids.mono {p q : Char → Bool} {cs : List Char} (h : Avoids p cs)
    (weaker : ∀ c, p c = false → q c = false) : Avoids q cs :=
  fun c first => weaker c (h c first)

theorem Ends.digit {cs : List Char} (h : Ends cs) : Avoids Char.isDigit cs :=
  h.mono fun c none => by simp_all

theorem Ends.point {cs : List Char} (h : Ends cs) : Avoids (· == '.') cs :=
  h.mono fun c none => by simp_all

theorem Ends.mark {cs : List Char} (h : Ends cs) : Avoids (fun c => c == 'e' || c == 'E') cs :=
  h.mono fun c none => by simp_all

theorem SpellsFraction.avoids {fraction : Option (List Char)} {fs rest : List Char}
    (spelled : SpellsFraction fraction fs) (h : Avoids Char.isDigit rest) :
    Avoids Char.isDigit (fs ++ rest) := by
  cases spelled with
  | absent => exact h
  | digits any digits =>
      rintro c ⟨⟩
      rfl

theorem SpellsExponent.avoids {p : Char → Bool} {exponent : Option Int} {es rest : List Char}
    (spelled : SpellsExponent exponent es) (marks : p 'e' = false ∧ p 'E' = false)
    (h : Avoids p rest) : Avoids p (es ++ rest) := by
  cases spelled with
  | absent => exact h
  | digits mark signed any digits =>
      rintro c ⟨⟩
      rcases mark with rfl | rfl
      · exact marks.1
      · exact marks.2

theorem WholeDigits.exists_cons {ds : List Char} (spelled : WholeDigits ds) :
    ∃ d rest, ds = d :: rest ∧ d.isDigit = true := by
  cases spelled with
  | zero => exact ⟨'0', [], rfl, rfl⟩
  | @positive d rest lead digits => exact ⟨d, rest, rfl, digits d List.mem_cons_self⟩

/-- The parts of a number are read one after another. -/
theorem readParts {whole fs es rest : List Char} {fraction : Option (List Char)}
    {exponent : Option Int} (digits : WholeDigits whole) (point : SpellsFraction fraction fs)
    (power : SpellsExponent exponent es) (ends : Ends rest) :
    readWhole? (whole ++ (fs ++ (es ++ rest))) = some (whole, fs ++ (es ++ rest)) ∧
      readFraction? (fs ++ (es ++ rest)) = some (fraction, es ++ rest) ∧
      readExponent? (es ++ rest) = some (exponent, rest) := by
  have behind : Avoids Char.isDigit (es ++ rest) := power.avoids ⟨rfl, rfl⟩ ends.digit
  exact ⟨readWhole?_digits digits (point.avoids behind),
    readFraction?_digits point (power.avoids ⟨rfl, rfl⟩ ends.point) behind,
    readExponent?_digits power ends.mark ends.digit⟩

theorem readNumber?_number {j : Json} {cs rest : List Char} (spelled : SpellsNumber j cs)
    (ends : Ends rest) : readNumber? (cs ++ rest) = some (j, rest) := by
  cases spelled with
  | natural digits finite =>
      obtain ⟨whole, fraction, exponent⟩ := readParts digits .absent .absent ends
      obtain ⟨d, more, rfl, digit⟩ := digits.exists_cons
      have minus : d ≠ '-' := ne_of_isDigit digit rfl
      simp only [List.nil_append, List.cons_append] at whole fraction exponent ⊢
      simp only [readNumber?, List.cons.injEq, minus, false_and, false_implies,
        implies_true, whole, fraction, exponent, Option.bind_eq_bind, Option.bind_some,
        Option.getD_none, finite, if_true, Bool.false_eq_true, if_false]
  | negative digits nonzero finite =>
      obtain ⟨whole, fraction, exponent⟩ := readParts digits .absent .absent ends
      simp only [List.nil_append] at whole fraction exponent
      simp only [readNumber?, List.cons_append, whole, fraction, exponent, Option.bind_eq_bind,
        Option.bind_some, Option.getD_none, finite, nonzero, if_true, if_false]
  | negativeZero =>
      obtain ⟨whole, fraction, exponent⟩ := readParts .zero .absent .absent ends
      have zero : digitsValue ['0'] = 0 := rfl
      have finite : fitsDouble ['0'] [] 0 = true := by decide
      simp only [List.nil_append, List.cons_append] at whole fraction exponent
      simp only [readNumber?, List.cons_append, List.nil_append, whole, fraction, exponent,
        Option.bind_eq_bind, Option.bind_some, Option.getD_none, finite, zero, if_true]
  | @real sign whole fs es fraction exponent signed digits point power parted finite =>
      obtain ⟨first, second, third⟩ := readParts digits point power ends
      have literal (text : List Char) :
          (text ++ rest).take ((text ++ rest).length - rest.length) = text := by simp
      rcases signed with rfl | rfl
      · have text := literal (whole ++ (fs ++ es))
        obtain ⟨d, more, rfl, digit⟩ := digits.exists_cons
        have minus : d ≠ '-' := ne_of_isDigit digit rfl
        simp only [List.nil_append, List.cons_append, List.append_assoc] at first text ⊢
        simp only [readNumber?, List.cons.injEq, minus, false_and, false_implies,
          implies_true, first, second, third, Option.bind_eq_bind, Option.bind_some, finite,
          if_true, text]
        split
        · simp at parted
        · rfl
      · have text := literal ('-' :: (whole ++ (fs ++ es)))
        simp only [List.nil_append, List.cons_append, List.append_assoc] at text ⊢
        simp only [readNumber?, first, second, third, Option.bind_eq_bind, Option.bind_some, finite,
          if_true, text]
        split
        · simp at parted
        · rfl

-- Some integers of 309 digits fit a double.
example : (readNumber? ('1' :: List.replicate 308 '0')).isSome = true ∧
    readNumber? (List.replicate 309 '9') = none := by
  decide +kernel

/-! ## Values -/

mutual

/-- The texts that stand for a value, without white space around them. -/
inductive Spells : Json → List Char → Prop
  | null : Spells .null ['n', 'u', 'l', 'l']
  | yes : Spells (.bool true) ['t', 'r', 'u', 'e']
  | no : Spells (.bool false) ['f', 'a', 'l', 's', 'e']
  | number {j : Json} {cs : List Char} (spelled : SpellsNumber j cs) : Spells j cs
  | string {s : String} {cs : List Char} (inside : SpellsText s.toList cs) :
      Spells (.str s) ('"' :: (cs ++ ['"']))
  | emptyArray {ws : List Char} (blank : Blank ws) : Spells (.arr []) ('[' :: (ws ++ [']']))
  | array {items : List Json} {cs : List Char} (inside : SpellsItems items cs) :
      Spells (.arr items) ('[' :: (cs ++ [']']))
  | emptyObject {ws : List Char} (blank : Blank ws) : Spells (.obj []) ('{' :: (ws ++ ['}']))
  | object {members : List (String × Json)} {cs : List Char} (inside : SpellsMembers members cs) :
      Spells (.obj members) ('{' :: (cs ++ ['}']))

/-- The items of an array that has at least one, between its brackets. -/
inductive SpellsItems : List Json → List Char → Prop
  | last {item : Json} {ws cs ws' : List Char} (before : Blank ws) (value : Spells item cs)
      (behind : Blank ws') : SpellsItems [item] (ws ++ (cs ++ ws'))
  | more {item : Json} {items : List Json} {ws cs ws' rest : List Char} (before : Blank ws)
      (value : Spells item cs) (behind : Blank ws') (others : SpellsItems items rest) :
      SpellsItems (item :: items) (ws ++ (cs ++ (ws' ++ ',' :: rest)))

/-- The members of an object that has at least one, between its braces. -/
inductive SpellsMembers : List (String × Json) → List Char → Prop
  | last {member : String × Json} {cs : List Char} (first : SpellsMember member cs) :
      SpellsMembers [member] cs
  | more {member : String × Json} {members : List (String × Json)} {cs rest : List Char}
      (first : SpellsMember member cs) (others : SpellsMembers members rest) :
      SpellsMembers (member :: members) (cs ++ ',' :: rest)

/-- A name and a value with a colon between them. -/
inductive SpellsMember : String × Json → List Char → Prop
  | pair {name : String} {value : Json} {ws key ws₁ ws₂ cs ws' : List Char} (before : Blank ws)
      (named : SpellsText name.toList key) (left : Blank ws₁) (right : Blank ws₂)
      (valued : Spells value cs) (behind : Blank ws') :
      SpellsMember (name, value)
        (ws ++ '"' :: (key ++ '"' :: (ws₁ ++ ':' :: (ws₂ ++ (cs ++ ws')))))

end

theorem skipSpace_append {ws : List Char} (blank : Blank ws) (cs : List Char) :
    skipSpace (ws ++ cs) = skipSpace cs :=
  List.dropWhile_append_of_pos blank

theorem skipSpace_cons {c : Char} (visible : isSpace c = false) (cs : List Char) :
    skipSpace (c :: cs) = c :: cs := by
  rw [skipSpace, List.dropWhile_cons_of_neg]
  rw [visible]
  exact Bool.false_ne_true

theorem Ends.blank_append {ws rest : List Char} (ends : Ends rest) (blank : Blank ws) :
    Ends (ws ++ rest) := by
  cases ws with
  | nil => exact ends
  | cons c ws =>
      rintro d ⟨⟩
      have space := blank c List.mem_cons_self
      simp only [isSpace, Bool.or_eq_true, beq_iff_eq] at space
      rcases space with ((rfl | rfl) | rfl) | rfl <;> rfl

theorem SpellsNumber.exists_cons {j : Json} {cs : List Char} (spelled : SpellsNumber j cs) :
    ∃ c rest, cs = c :: rest ∧ (c = '-' ∨ c.isDigit = true) := by
  cases spelled with
  | natural digits =>
      obtain ⟨d, rest, rfl, digit⟩ := digits.exists_cons
      exact ⟨d, rest, rfl, .inr digit⟩
  | negative digits nonzero => exact ⟨'-', _, rfl, .inl rfl⟩
  | negativeZero => exact ⟨'-', _, rfl, .inl rfl⟩
  | real signed digits point power parted finite =>
      rcases signed with rfl | rfl
      · obtain ⟨d, rest, rfl, digit⟩ := digits.exists_cons
        exact ⟨d, _, rfl, .inr digit⟩
      · exact ⟨'-', _, rfl, .inl rfl⟩

/-- A value starts with a character that is neither white space nor the end of anything. -/
theorem Spells.exists_cons {j : Json} {cs : List Char} (spelled : Spells j cs) :
    ∃ c rest, cs = c :: rest ∧ isSpace c = false ∧ c ≠ ']' ∧ c ≠ '}' := by
  cases spelled with
  | number spelled =>
      obtain ⟨c, rest, rfl, first⟩ := spelled.exists_cons
      refine ⟨c, rest, rfl, ?_⟩
      rcases first with rfl | digit
      · decide
      · refine ⟨?_, ne_of_isDigit digit rfl, ne_of_isDigit digit rfl⟩
        by_contra space
        simp only [isSpace, Bool.not_eq_false, Bool.or_eq_true, beq_iff_eq] at space
        rcases space with ((rfl | rfl) | rfl) | rfl <;> exact absurd digit (by decide)
  | _ => exact ⟨_, _, rfl, by decide⟩

/-! ## The reader follows the grammar -/

theorem readValue?_append {ws : List Char} (blank : Blank ws) (fuel depth : Nat) (cs : List Char) :
    readValue? fuel depth (ws ++ cs) = readValue? fuel depth cs := by
  cases fuel with
  | zero => rfl
  | succ fuel => rw [readValue?, readValue?, skipSpace_append blank]

theorem readValue?_number {j : Json} {cs rest : List Char} (spelled : SpellsNumber j cs)
    (ends : Ends rest) (fuel depth : Nat) :
    readValue? (fuel + 1) depth (cs ++ rest) = some (j, rest) := by
  have read := readNumber?_number spelled ends
  obtain ⟨c, more, rfl, first⟩ := spelled.exists_cons
  obtain ⟨_, _, same, visible, -⟩ := (Spells.number spelled).exists_cons
  obtain ⟨rfl, rfl⟩ := List.cons.inj same
  rw [List.cons_append] at read ⊢
  rw [readValue?, skipSpace_cons visible]
  split
  case h_7 => exact read
  all_goals
    rename_i same
    obtain ⟨rfl, -⟩ := List.cons.inj same
    exact absurd first (by decide)

theorem readItems?_append {ws : List Char} (blank : Blank ws) (fuel depth : Nat) (cs : List Char) :
    readItems? fuel depth (ws ++ cs) = readItems? fuel depth cs := by
  cases fuel with
  | zero => rfl
  | succ fuel => rw [readItems?, readItems?, readValue?_append blank]

theorem readMembers?_append {ws : List Char} (blank : Blank ws) (fuel depth : Nat)
    (cs : List Char) : readMembers? fuel depth (ws ++ cs) = readMembers? fuel depth cs := by
  cases fuel with
  | zero => rfl
  | succ fuel => rw [readMembers?, readMembers?, skipSpace_append blank]

/-- The items of an array start with an item, behind white space. -/
theorem SpellsItems.exists_append {items : List Json} {cs : List Char}
    (spelled : SpellsItems items cs) :
    ∃ ws c more, cs = ws ++ c :: more ∧ Blank ws ∧ isSpace c = false ∧ c ≠ ']' := by
  cases spelled with
  | last before value behind =>
      obtain ⟨c, more, rfl, visible, other, -⟩ := value.exists_cons
      exact ⟨_, c, _, rfl, before, visible, other⟩
  | more before value behind others =>
      obtain ⟨c, more, rfl, visible, other, -⟩ := value.exists_cons
      exact ⟨_, c, _, rfl, before, visible, other⟩

/-- The members of an object start with a quote, behind white space. -/
theorem SpellsMembers.exists_append {members : List (String × Json)} {cs : List Char}
    (spelled : SpellsMembers members cs) : ∃ ws more, cs = ws ++ '"' :: more ∧ Blank ws := by
  cases spelled with
  | last first =>
      cases first with
      | pair before named left right valued behind => exact ⟨_, _, rfl, before⟩
  | more first others =>
      cases first with
      | pair before named left right valued behind =>
          exact ⟨_, _, List.append_assoc .., before⟩

section Steps

variable {fuel depth : Nat} {cs behind next rest : List Char}

theorem readValue?_bracket (fuel depth : Nat) (cs : List Char) :
    readValue? (fuel + 1) (depth + 1) ('[' :: cs) =
      match skipSpace cs with
      | ']' :: tail => some (.arr [], tail)
      | rest => (readItems? fuel depth rest).map fun (items, tail) => (.arr items, tail) :=
  rfl

theorem readValue?_brace (fuel depth : Nat) (cs : List Char) :
    readValue? (fuel + 1) (depth + 1) ('{' :: cs) =
      match skipSpace cs with
      | '}' :: tail => some (.obj [], tail)
      | rest => (readMembers? fuel depth rest).map fun (members, tail) => (.obj members, tail) :=
  rfl

theorem readValue?_array {items : List Json} (inside : SpellsItems items cs)
    (read : readItems? fuel depth (cs ++ ']' :: rest) = some (items, rest)) :
    readValue? (fuel + 1) (depth + 1) ('[' :: (cs ++ ']' :: rest)) = some (.arr items, rest) := by
  obtain ⟨ws, c, more, rfl, blank, visible, other⟩ := inside.exists_append
  rw [List.append_assoc, List.cons_append] at read ⊢
  rw [readItems?_append blank] at read
  rw [readValue?_bracket, skipSpace_append blank, skipSpace_cons visible]
  split
  · rename_i same
    exact absurd (List.cons.inj same).1 other
  · rw [read]
    rfl

theorem readValue?_object {members : List (String × Json)} (inside : SpellsMembers members cs)
    (read : readMembers? fuel depth (cs ++ '}' :: rest) = some (members, rest)) :
    readValue? (fuel + 1) (depth + 1) ('{' :: (cs ++ '}' :: rest)) =
      some (.obj members, rest) := by
  obtain ⟨ws, more, rfl, blank⟩ := inside.exists_append
  rw [List.append_assoc, List.cons_append] at read ⊢
  rw [readMembers?_append blank] at read
  rw [readValue?_brace, skipSpace_append blank, skipSpace_cons rfl]
  change (readMembers? fuel depth ('"' :: (more ++ '}' :: rest))).map _ = _
  rw [read]
  rfl

theorem readItems?_last {item : Json} (read : readValue? fuel depth cs = some (item, behind))
    (closes : skipSpace behind = ']' :: rest) :
    readItems? (fuel + 1) depth cs = some ([item], rest) := by
  simp only [readItems?, read, closes]

theorem readItems?_more {item : Json} {items : List Json}
    (read : readValue? fuel depth cs = some (item, behind))
    (comma : skipSpace behind = ',' :: next)
    (others : readItems? fuel depth next = some (items, rest)) :
    readItems? (fuel + 1) depth cs = some (item :: items, rest) := by
  simp only [readItems?, read, comma, others, Option.map_some]

variable {name : String} {value : Json} {ws key ws' : List Char}

theorem readMembers?_last (before : Blank ws) (named : SpellsText name.toList key)
    (colon : Blank ws') (read : readValue? fuel depth cs = some (value, behind))
    (closes : skipSpace behind = '}' :: rest) :
    readMembers? (fuel + 1) depth (ws ++ '"' :: (key ++ '"' :: (ws' ++ ':' :: cs))) =
      some ([(name, value)], rest) := by
  simp only [readMembers?, skipSpace_append before, skipSpace_cons (rfl : isSpace '"' = false),
    readString?_text named, skipSpace_append colon, skipSpace_cons (rfl : isSpace ':' = false),
    read, closes, String.ofList_toList]

theorem readMembers?_more {members : List (String × Json)} (before : Blank ws)
    (named : SpellsText name.toList key) (colon : Blank ws')
    (read : readValue? fuel depth cs = some (value, behind))
    (comma : skipSpace behind = ',' :: next)
    (others : readMembers? fuel depth next = some (members, rest)) :
    readMembers? (fuel + 1) depth (ws ++ '"' :: (key ++ '"' :: (ws' ++ ':' :: cs))) =
      some ((name, value) :: members, rest) := by
  simp only [readMembers?, skipSpace_append before, skipSpace_cons (rfl : isSpace '"' = false),
    readString?_text named, skipSpace_append colon, skipSpace_cons (rfl : isSpace ':' = false),
    read, comma, others, Option.map_some, String.ofList_toList]

end Steps

-- By recursion on how the value is spelled. Every call takes at least one character and at most two
-- units of fuel for it.
mutual

theorem readValue?_spells {j : Json} {cs : List Char} (spelled : Spells j cs) {fuel depth : Nat}
    {rest : List Char} (enough : 2 * cs.length ≤ fuel) (nests : j.depth ≤ depth)
    (ends : Ends rest) : readValue? fuel depth (cs ++ rest) = some (j, rest) := by
  obtain ⟨fuel, rfl⟩ : ∃ n, fuel = n + 1 := by
    obtain ⟨c, more, rfl, -⟩ := spelled.exists_cons
    exact Nat.exists_eq_succ_of_ne_zero (by simp only [List.length_cons] at enough; omega)
  cases spelled with
  | null | yes | no => rfl
  | number number => exact readValue?_number number ends fuel depth
  | @string s cs inside =>
      have read := readString?_text inside rest
      rw [List.cons_append, List.append_assoc]
      change (readString? (cs ++ '"' :: rest)).map _ = _
      simp only [read, Option.map_some, String.ofList_toList]
  | emptyArray blank =>
      obtain ⟨depth, rfl⟩ : ∃ n, depth = n + 1 := Nat.exists_eq_add_of_le' nests
      rw [List.cons_append, List.append_assoc, readValue?_bracket, skipSpace_append blank]
      rfl
  | array inside =>
      rw [Json.depth] at nests
      obtain ⟨depth, rfl⟩ : ∃ n, depth = n + 1 := ⟨depth - 1, by omega⟩
      simp only [List.length_cons, List.length_append] at enough
      rw [List.cons_append, List.append_assoc]
      exact readValue?_array inside (readItems?_spells inside (by omega) (by omega))
  | emptyObject blank =>
      obtain ⟨depth, rfl⟩ : ∃ n, depth = n + 1 := Nat.exists_eq_add_of_le' nests
      rw [List.cons_append, List.append_assoc, readValue?_brace, skipSpace_append blank]
      rfl
  | object inside =>
      rw [Json.depth] at nests
      obtain ⟨depth, rfl⟩ : ∃ n, depth = n + 1 := ⟨depth - 1, by omega⟩
      simp only [List.length_cons, List.length_append] at enough
      rw [List.cons_append, List.append_assoc]
      exact readValue?_object inside (readMembers?_spells inside (by omega) (by omega))

theorem readItems?_spells {items : List Json} {cs : List Char} (spelled : SpellsItems items cs)
    {fuel depth : Nat} {rest : List Char} (enough : 2 * cs.length + 1 ≤ fuel)
    (nests : depthItems items ≤ depth) :
    readItems? fuel depth (cs ++ ']' :: rest) = some (items, rest) := by
  obtain ⟨fuel, rfl⟩ : ∃ n, fuel = n + 1 := Nat.exists_eq_succ_of_ne_zero (by omega)
  cases spelled with
  | @last item ws cs ws' before value behind =>
      simp only [List.length_append] at enough
      simp only [depthItems, Nat.max_le] at nests
      have closes : Ends (ws' ++ ']' :: rest) := Ends.blank_append (by rintro c ⟨⟩; rfl) behind
      have read := readValue?_spells value (by omega : 2 * cs.length ≤ fuel) nests.1 closes
      simp only [List.append_assoc]
      rw [readItems?_append before]
      exact readItems?_last read (skipSpace_append behind _)
  | @more item items ws cs ws' next before value behind others =>
      simp only [List.length_append, List.length_cons] at enough
      simp only [depthItems, Nat.max_le] at nests
      have comma : Ends (ws' ++ ',' :: (next ++ ']' :: rest)) :=
        Ends.blank_append (by rintro c ⟨⟩; rfl) behind
      have read := readValue?_spells value (by omega : 2 * cs.length ≤ fuel) nests.1 comma
      have left : readItems? fuel depth (next ++ ']' :: rest) = some (items, rest) :=
        readItems?_spells others (by omega) nests.2
      simp only [List.append_assoc, List.cons_append]
      rw [readItems?_append before]
      exact readItems?_more read (skipSpace_append behind _) left

theorem readMembers?_spells {members : List (String × Json)} {cs : List Char}
    (spelled : SpellsMembers members cs) {fuel depth : Nat} {rest : List Char}
    (enough : 2 * cs.length + 1 ≤ fuel) (nests : depthMembers members ≤ depth) :
    readMembers? fuel depth (cs ++ '}' :: rest) = some (members, rest) := by
  obtain ⟨fuel, rfl⟩ : ∃ n, fuel = n + 1 := Nat.exists_eq_succ_of_ne_zero (by omega)
  cases spelled with
  | last first =>
      cases first with
      | @pair name value ws key ws₁ ws₂ cs ws' before named left right valued behind =>
          simp only [List.length_append, List.length_cons] at enough
          simp only [depthMembers, Nat.max_le] at nests
          have closes : Ends (ws' ++ '}' :: rest) :=
            Ends.blank_append (by rintro c ⟨⟩; rfl) behind
          have read := readValue?_spells valued (by omega : 2 * cs.length ≤ fuel) nests.1 closes
          rw [← readValue?_append right] at read
          simp only [List.append_assoc, List.cons_append]
          exact readMembers?_last before named left read (skipSpace_append behind _)
  | @more member members _ next first others =>
      cases first with
      | @pair name value ws key ws₁ ws₂ cs ws' before named left right valued behind =>
          simp only [List.length_append, List.length_cons] at enough
          simp only [depthMembers, Nat.max_le] at nests
          have comma : Ends (ws' ++ ',' :: (next ++ '}' :: rest)) :=
            Ends.blank_append (by rintro c ⟨⟩; rfl) behind
          have read := readValue?_spells valued (by omega : 2 * cs.length ≤ fuel) nests.1 comma
          have more : readMembers? fuel depth (next ++ '}' :: rest) = some (members, rest) :=
            readMembers?_spells others (by omega) nests.2
          rw [← readValue?_append right] at read
          simp only [List.append_assoc, List.cons_append]
          exact readMembers?_more before named left read (skipSpace_append behind _) more

end

/-- Every text of the grammar is read, with the value it stands for. White space may surround it. -/
theorem read?_spells {j : Json} {ws cs ws' : List Char} {depth : Nat} (before : Blank ws)
    (spelled : Spells j cs) (behind : Blank ws') (nests : j.depth ≤ depth) :
    read? depth (String.ofList (ws ++ (cs ++ ws'))) = some j := by
  have nothing : Ends [] := nofun
  have ends : Ends ws' := by
    rw [← List.append_nil ws']
    exact nothing.blank_append behind
  have left : skipSpace ws' = [] := List.dropWhile_eq_nil_iff.mpr behind
  have read : readValue? (2 * (ws ++ (cs ++ ws')).length + 2) depth (ws ++ (cs ++ ws')) =
      some (j, ws') := by
    rw [readValue?_append before]
    exact readValue?_spells spelled (by simp only [List.length_append]; omega) nests ends
  simp only [read?, String.toList_ofList, read, left, List.isEmpty_nil, if_true]

/-! ## Readers that go deeper -/

-- By recursion on the fuel. The depth is looked at only where a bracket or a brace opens.
mutual

theorem readValue?_deeper {fuel depth bound : Nat} {cs : List Char} {read : Json × List Char}
    (le : depth ≤ bound) (found : readValue? fuel depth cs = some read) :
    readValue? fuel bound cs = some read := by
  cases fuel with
  | zero => cases found
  | succ fuel =>
      rw [readValue?] at found ⊢
      split at found
      case h_5 rest start =>
          cases depth with
          | zero => cases found
          | succ depth =>
              obtain ⟨bound, rfl⟩ : ∃ n, bound = n + 1 := ⟨bound - 1, by omega⟩
              simp only at found ⊢
              split at found
              · exact found
              · obtain ⟨⟨items, tail⟩, inside, rfl⟩ := Option.map_eq_some_iff.mp found
                rw [readItems?_deeper (Nat.le_of_succ_le_succ le) inside]
                rfl
      case h_6 rest start =>
          cases depth with
          | zero => cases found
          | succ depth =>
              obtain ⟨bound, rfl⟩ : ∃ n, bound = n + 1 := ⟨bound - 1, by omega⟩
              simp only at found ⊢
              split at found
              · exact found
              · obtain ⟨⟨members, tail⟩, inside, rfl⟩ := Option.map_eq_some_iff.mp found
                rw [readMembers?_deeper (Nat.le_of_succ_le_succ le) inside]
                rfl
      all_goals exact found

theorem readItems?_deeper {fuel depth bound : Nat} {cs : List Char}
    {read : List Json × List Char} (le : depth ≤ bound)
    (found : readItems? fuel depth cs = some read) : readItems? fuel bound cs = some read := by
  cases fuel with
  | zero => cases found
  | succ fuel =>
      rw [readItems?] at found ⊢
      split at found
      · cases found
      · rename_i item rest first
        rw [readValue?_deeper le first]
        simp only
        split at found
        · exact found
        · obtain ⟨⟨items, tail⟩, inside, rfl⟩ := Option.map_eq_some_iff.mp found
          rw [readItems?_deeper le inside]
          rfl
        · cases found

theorem readMembers?_deeper {fuel depth bound : Nat} {cs : List Char}
    {read : List (String × Json) × List Char} (le : depth ≤ bound)
    (found : readMembers? fuel depth cs = some read) : readMembers? fuel bound cs = some read := by
  cases fuel with
  | zero => cases found
  | succ fuel =>
      rw [readMembers?] at found ⊢
      split at found
      · split at found
        · cases found
        · split at found
          · split at found
            · cases found
            · rename_i value rest first
              rw [readValue?_deeper le first]
              simp only
              split at found
              · exact found
              · obtain ⟨⟨members, tail⟩, inside, rfl⟩ := Option.map_eq_some_iff.mp found
                rw [readMembers?_deeper le inside]
                rfl
              · cases found
          · cases found
      · cases found

end

/-- A reader that goes deeper reads all that another one reads. -/
theorem read?_deeper {depth bound : Nat} {text : String} {j : Json} (le : depth ≤ bound)
    (found : read? depth text = some j) : read? bound text = some j := by
  rw [read?] at found ⊢
  split at found
  · rename_i value rest first
    rw [readValue?_deeper le first]
    exact found
  · cases found

/-- A text stands for a value: it spells the value between white space. -/
def SpelledBy (j : Json) (text : String) : Prop :=
  ∃ ws cs ws', text = String.ofList (ws ++ (cs ++ ws')) ∧ Blank ws ∧ Spells j cs ∧ Blank ws'

theorem SpelledBy.read? {j : Json} {text : String} {depth : Nat} (spelled : j.SpelledBy text)
    (nests : j.depth ≤ depth) : read? depth text = some j := by
  obtain ⟨ws, cs, ws', rfl, before, inside, behind⟩ := spelled
  exact read?_spells before inside behind nests

/-- Whatever the depth of a reader, it reads the value that a text stands for or none. -/
theorem SpelledBy.eq_of_read? {j value : Json} {text : String} {depth : Nat}
    (spelled : j.SpelledBy text) (found : Json.read? depth text = some value) : value = j := by
  have deep := read?_deeper (Nat.le_max_left depth j.depth) found
  rw [spelled.read? (Nat.le_max_right depth j.depth)] at deep
  exact (Option.some.inj deep).symm

end FunctionMeter.Json
