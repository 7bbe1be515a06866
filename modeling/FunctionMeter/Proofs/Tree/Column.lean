import FunctionMeter.Proofs.Document.Offset
import FunctionMeter.Proofs.Tree.Span
import Mathlib

/-!
# Columns of points

A parser names a place by a row and a byte of the row, an editor by a line and a UTF-16 code unit of
the line's content. There is a way from points to positions and one from positions to offsets, and
in the content of a row they undo each other. Only a position inside a character comes back as the
position behind this character.

The carriage return at the end of a row is not part of the content, but a node may end behind it,
and then the bytes of the row are counted in the place of its code units. The second result says
when this shows in a symbol: the column is too large exactly if the row has a character of several
bytes.
-/

namespace FunctionMeter

namespace Text

/-- A boundary of a row lies behind the carriage return at its end, and the row has a character of
several bytes. -/
structure Displaced (before after : List Char) : Prop where
  last : after = []
  ending : before.getLast? = some '\r'
  wide : ∃ c ∈ before, c.utf8Size ≠ 1

theorem columnAt_of_displaced {before after : List Char} (h : Displaced before after) :
    columnAt (before ++ after) (byteCount before) = byteCount before := by
  rw [h.last, List.append_nil, columnAt_end, if_pos h.ending]

theorem columnAt_of_not_displaced {before after : List Char} (h : ¬ Displaced before after) :
    columnAt (before ++ after) (byteCount before) = unitCount before := by
  by_cases last : after = []
  · rw [last, List.append_nil, columnAt_end]
    split
    · rename_i ending
      refine (unitCount_eq_byteCount fun c member => ?_).symm
      by_contra several
      exact h ⟨last, ending, c, member, several⟩
    · rfl
  · exact columnAt_of_inside before last

end Text

namespace Document

variable {d : Document} {p : Point} {row before after : List Char}

/-! ## Positions and offsets -/

/-- In the content of a row, the position of a boundary counts code units. -/
theorem position_of_content (line : (Text.lines d.text.toList)[p.row]? = some (before ++ after))
    (column : p.column = Text.byteCount before) :
    position d.lines p = ⟨UInt32.ofNat p.row, UInt32.ofNat (Text.unitCount before)⟩ := by
  rw [Text.getElem?_lines] at line
  obtain ⟨row, found, content⟩ := Option.map_eq_some_iff.mp line
  rw [position_eq found, Text.columnAt, content, column, Text.columnOfByte?_append,
    Option.getD_some]

/-- The two ways undo each other. Each boundary in the content of a row has its byte offset as the
offset of its position, as long as row and column are words. And each position with an offset leads
to a boundary in the content of its line, whose position is the one that was given, or the next one
if that was inside a character. -/
theorem offset?_position_inverse (d : Document) :
    (∀ (p : Point) (before after : List Char),
      (Text.lines d.text.toList)[p.row]? = some (before ++ after) →
      p.column = Text.byteCount before →
      p.row < UInt32.size → Text.unitCount before < UInt32.size →
      Text.offset? d.text.toList (position d.lines p) = some (Node.offset d.rows p)) ∧
    ∀ (q : Position) (n : Nat), Text.offset? d.text.toList q = some n →
      ∃ before after, (Text.lines d.text.toList)[q.line.toNat]? = some (before ++ after) ∧
        n = Node.offset d.rows ⟨q.line.toNat, Text.byteCount before⟩ ∧
        position d.lines ⟨q.line.toNat, Text.byteCount before⟩ =
          ⟨q.line, UInt32.ofNat (Text.unitCount before)⟩ ∧
        (Text.unitCount before = q.character.toNat ∧
            ¬ Text.InsidePair (before ++ after) q.character.toNat ∨
          Text.unitCount before = q.character.toNat + 1 ∧
            Text.InsidePair (before ++ after) q.character.toNat) := by
  constructor
  · intro p before after line column rowWord columnWord
    rw [position_of_content line column, Text.offset?, Text.offsetInLines?_eq,
      UInt32.toNat_ofNat_of_lt' rowWord, UInt32.toNat_ofNat_of_lt' columnWord]
    rw [Text.getElem?_lines] at line
    obtain ⟨row, found, content⟩ := Option.map_eq_some_iff.mp line
    rw [found, Option.bind_some, content, Text.byteOfColumn?_append, Option.map_some, ← column]
    rfl
  · intro q n offset
    obtain ⟨row, before, after, found, content, rfl, boundary⟩ := Text.offset?_eq_some offset
    have line : (Text.lines d.text.toList)[q.line.toNat]? = some (before ++ after) := by
      rw [Text.getElem?_lines, found, Option.map_some, content]
    refine ⟨before, after, line, rfl, ?_, ?_⟩
    · have position := position_of_content (p := ⟨q.line.toNat, Text.byteCount before⟩) line rfl
      rwa [UInt32.ofNat_toNat] at position
    · obtain meets | inside := boundary
      · refine .inl ⟨meets, ?_⟩
        rw [← meets]
        exact Text.not_insidePair_unitCount before after
      · exact .inr inside

/-- A letter of two bytes before a line ending of two characters, and a note sign of four bytes. -/
def melody : Document := ⟨⟨"untitled", none, "melody", none, none⟩, 1, "é\r\n𝄞x"⟩

/-- Behind the note sign, and inside it. -/
theorem offset?_position_inverse_melody :
    Text.offset? melody.text.toList (position melody.lines ⟨1, 4⟩) = some 8 ∧
      Text.offset? melody.text.toList ⟨1, 1⟩ = some 8 ∧
      ∃ before after, 8 = Node.offset melody.rows ⟨1, Text.byteCount before⟩ ∧
        position melody.lines ⟨1, Text.byteCount before⟩ = ⟨1, 2⟩ ∧
        Text.InsidePair (before ++ after) 1 := by
  obtain ⟨there, back⟩ := offset?_position_inverse melody
  have inner : Text.offset? melody.text.toList ⟨1, 1⟩ = some 8 := by decide
  refine ⟨there ⟨1, 4⟩ ['𝄞'] ['x'] (by decide) (by decide) (by decide) (by decide), inner, ?_⟩
  obtain ⟨before, after, line, offset, position, ⟨-, outside⟩ | ⟨units, inside⟩⟩ :=
    back ⟨1, 1⟩ 8 inner
  · have content : before ++ after = ['𝄞', 'x'] := Option.some.inj (line.symm.trans (by decide))
    exact absurd ⟨[], '𝄞', ['x'], content, by decide, by decide⟩ outside
  · rw [units] at position
    exact ⟨before, after, offset, position, inside⟩

end Document

/-! ## Columns of symbols -/

namespace Point

/-- A position is that of a point: it has the row of the point, and it counts the code units before
the point in its row, or at a displaced boundary the bytes. -/
structure Marks (rows : List (List Char)) (p : Point) (q : Position) (before after : List Char) :
    Prop where
  line : q.line.toNat = p.row
  row : rows[p.row]? = some (before ++ after)
  column : p.column = Text.byteCount before
  character : ¬ Text.Displaced before after → q.character.toNat = Text.unitCount before
  displaced : Text.Displaced before after →
    q.character.toNat = Text.byteCount before ∧ Text.unitCount before < Text.byteCount before

/-- A position is made from a point. -/
def Makes (rows : List (List Char)) (p : Point) (q : Position) : Prop :=
  ∃ before after, Marks rows p q before after

theorem makes_position {d : Document} {p : Point} (boundary : p.isBoundary d.rows = true) :
    Makes d.rows p (Document.position d.lines p) := by
  obtain ⟨rowWord, columnWord, before, after, found, size⟩ := exists_of_isBoundary boundary
  have bound := Text.columnAt_le_byteCount before after
  have word : Text.columnAt (before ++ after) (Text.byteCount before) < UInt32.size := by omega
  rw [Document.position_eq found, size]
  refine ⟨before, after, UInt32.toNat_ofNat_of_lt' rowWord, found, size, ?_, ?_⟩
  · intro plain
    rw [UInt32.toNat_ofNat_of_lt' word, Text.columnAt_of_not_displaced plain]
  · intro moved
    rw [UInt32.toNat_ofNat_of_lt' word, Text.columnAt_of_displaced moved]
    exact ⟨rfl, Text.unitCount_lt_byteCount moved.wide⟩

end Point

namespace Node

variable {rows : List (List Char)} {m n : Node}

mutual

/-- Whether the points of a node and of everything below it are character boundaries. -/
def isBounded (rows : List (List Char)) : Node → Bool
  | ⟨_, _, start, stop, _, children⟩ =>
    start.isBoundary rows && stop.isBoundary rows && areBounded rows children

def areBounded (rows : List (List Char)) : List Node → Bool
  | [] => true
  | n :: nodes => isBounded rows n && areBounded rows nodes

end

theorem isBounded_iff : n.isBounded rows = true ↔ n.start.isBoundary rows = true ∧
    n.stop.isBoundary rows = true ∧ areBounded rows n.children = true := by
  cases n
  simp only [isBounded, Bool.and_eq_true, and_assoc]

theorem isBounded_of_mem {nodes : List Node} (bounded : areBounded rows nodes = true)
    (member : n ∈ nodes) : n.isBounded rows = true := by
  induction nodes with
  | nil => cases member
  | cons m nodes ih =>
      rw [areBounded, Bool.and_eq_true] at bounded
      obtain rfl | later := List.mem_cons.mp member
      · exact bounded.1
      · exact ih bounded.2 later

theorem Below.isBounded (below : Below m n) (bounded : n.isBounded rows = true) :
    m.isBounded rows = true := by
  induction below with
  | refl => exact bounded
  | child member below ih => exact ih (isBounded_of_mem (isBounded_iff.mp bounded).2.2 member)

end Node

namespace Source

variable {d : Document} {language : Language} {node root : Node} {s : Symbol}

/-- The positions of a symbol are made from points of its node and of nodes below it: the ends of
the full range from those of the node, the ends of the signature from where it starts and ends. A
signature that would end before it starts ends where it starts. -/
structure Places (source : Source) (rows : List (List Char)) (node : Node) (role : Role)
    (s : Symbol) : Prop where
  start : node.start.Makes rows s.fullRange.start
  stop : node.stop.Makes rows s.fullRange.stop
  signatureStart : (source.signatureStart node).Makes rows s.signatureRange.start
  signatureStop : (source.signatureEnd node role).Makes rows s.signatureRange.stop ∨
    (source.signatureStart node).Makes rows s.signatureRange.stop

theorem places_symbol (role : Role) (enclosing : Option (Role × String)) (below : List Symbol)
    (bounded : node.isBounded d.rows = true) :
    (ofDocument language d).Places d.rows node role
      ((ofDocument language d).symbol node role enclosing below) := by
  obtain ⟨start, stop, -⟩ := Node.isBounded_iff.mp bounded
  have signatureStart : ((ofDocument language d).signatureStart node).isBoundary d.rows = true := by
    obtain ⟨m, inside, same⟩ := (ofDocument language d).exists_below_signatureStart node
    rw [same]
    exact (Node.isBounded_iff.mp (inside.isBounded bounded)).1
  have signatureEnd :
      ((ofDocument language d).signatureEnd node role).isBoundary d.rows = true := by
    obtain ⟨m, inside, same | same⟩ :=
      (ofDocument language d).exists_below_signatureEnd node role
    · rw [same]
      exact (Node.isBounded_iff.mp (inside.isBounded bounded)).1
    · rw [same]
      exact (Node.isBounded_iff.mp (inside.isBounded bounded)).2.1
  refine ⟨Point.makes_position start, Point.makes_position stop,
    Point.makes_position signatureStart, ?_⟩
  rw [symbol, Position.max]
  dsimp only
  split
  · exact .inr (Point.makes_position signatureStart)
  · exact .inl (Point.makes_position signatureEnd)

/-- For every text and every tree whose points are character boundaries of its rows, each position
of each symbol has the row of the point that it was made from, and as its character the number of
code units before the point in this row. Only behind the carriage return of a row that has a
character of several bytes it has the larger number of bytes. -/
theorem symbols_columns (d : Document) (root : Node) (symbols : List Symbol)
    (found : d.symbols? root = some symbols)
    (bounded : root.isBounded (Text.rawLines d.text.toList) = true) :
    ∃ language, d.language? = some language ∧
      ∀ s ∈ Symbol.preorderAll symbols, ∃ node role, node.Below root ∧
        language.role node = some role ∧
        (ofDocument language d).Places (Text.rawLines d.text.toList) node role s := by
  obtain ⟨language, known, rfl⟩ := Option.map_eq_some_iff.mp found
  refine ⟨language, known, ?_⟩
  intro s member
  obtain ⟨node, below, role, surrounding, has, rfl⟩ := exists_standsFor member
  exact ⟨node, role, below, has, places_symbol role surrounding _ (below.isBounded bounded)⟩

/-- A method whose signature is followed by a comment up to the end of the line. -/
def commentText : Document :=
  ⟨⟨"untitled", none, "Box.java", none, none⟩, 1,
    "class A \x7b\r\n    void g() // é\r\n    \x7b\r\n        y();\r\n    \x7d\r\n\x7d\r\n"⟩

def commentTree : Node :=
  ⟨"program", true, ⟨0, 0⟩, ⟨6, 0⟩, [],
    [⟨"class_declaration", true, ⟨0, 0⟩, ⟨5, 1⟩, [("body", 2), ("name", 1)],
      [⟨"class", false, ⟨0, 0⟩, ⟨0, 5⟩, [], []⟩,
       ⟨"identifier", true, ⟨0, 6⟩, ⟨0, 7⟩, [], []⟩,
       ⟨"class_body", true, ⟨0, 8⟩, ⟨5, 1⟩, [],
        [⟨"\x7b", false, ⟨0, 8⟩, ⟨0, 9⟩, [], []⟩,
         ⟨"method_declaration", true, ⟨1, 4⟩, ⟨4, 5⟩, [("body", 4), ("name", 1), ("type", 0)],
          [⟨"void_type", true, ⟨1, 4⟩, ⟨1, 8⟩, [], []⟩,
           ⟨"identifier", true, ⟨1, 9⟩, ⟨1, 10⟩, [], []⟩,
           ⟨"formal_parameters", true, ⟨1, 10⟩, ⟨1, 12⟩, [],
            [⟨"(", false, ⟨1, 10⟩, ⟨1, 11⟩, [], []⟩,
             ⟨")", false, ⟨1, 11⟩, ⟨1, 12⟩, [], []⟩]⟩,
           ⟨"line_comment", true, ⟨1, 13⟩, ⟨1, 19⟩, [], []⟩,
           ⟨"block", true, ⟨2, 4⟩, ⟨4, 5⟩, [],
            [⟨"\x7b", false, ⟨2, 4⟩, ⟨2, 5⟩, [], []⟩,
             ⟨"expression_statement", true, ⟨3, 8⟩, ⟨3, 12⟩, [],
              [⟨"method_invocation", true, ⟨3, 8⟩, ⟨3, 11⟩, [("name", 0)],
                [⟨"identifier", true, ⟨3, 8⟩, ⟨3, 9⟩, [], []⟩,
                 ⟨"argument_list", true, ⟨3, 9⟩, ⟨3, 11⟩, [],
                  [⟨"(", false, ⟨3, 9⟩, ⟨3, 10⟩, [], []⟩,
                   ⟨")", false, ⟨3, 10⟩, ⟨3, 11⟩, [], []⟩]⟩]⟩,
               ⟨";", false, ⟨3, 11⟩, ⟨3, 12⟩, [], []⟩]⟩,
             ⟨"\x7d", false, ⟨4, 4⟩, ⟨4, 5⟩, [], []⟩]⟩]⟩,
         ⟨"\x7d", false, ⟨5, 0⟩, ⟨5, 1⟩, [], []⟩]⟩]⟩]⟩

/-- The signature of the method ends behind the carriage return of a row of 18 code units, and the
symbol says 19. -/
theorem symbols_columns_comment :
    ∃ symbols, commentText.symbols? commentTree = some symbols ∧
      commentTree.isBounded (Text.rawLines commentText.text.toList) = true ∧
      (Symbol.preorderAll symbols).map (·.signatureRange.stop) = [⟨0, 7⟩, ⟨1, 19⟩] ∧
      (Text.rawLines commentText.text.toList)[1]?.map Text.unitCount = some 18 ∧
      ∃ language, ∀ s ∈ Symbol.preorderAll symbols, ∃ node role, node.Below commentTree ∧
        (ofDocument language commentText).Places (Text.rawLines commentText.text.toList) node role
          s := by
  have bounded : commentTree.isBounded (Text.rawLines commentText.text.toList) = true := by decide
  have java : commentText.language? = some .java := by decide
  have found : commentText.symbols? commentTree =
      some ((ofDocument .java commentText).symbols commentTree) := by
    rw [Document.symbols?, java, Option.map_some]
  obtain ⟨language, -, places⟩ := symbols_columns commentText commentTree _ found bounded
  refine ⟨_, found, bounded, by decide, by decide, language, ?_⟩
  intro s member
  obtain ⟨node, role, below, -, placed⟩ := places s member
  exact ⟨node, role, below, placed⟩

end Source

end FunctionMeter
