import FunctionMeter.Loc
import FunctionMeter.Proofs.Document.Mirror
import FunctionMeter.Proofs.Position
import FunctionMeter.Proofs.Text.Units
import FunctionMeter.Proofs.Tree.Walk
import Mathlib

/-!
# Ranges of the symbols of a well-formed tree

In the tree of a text every node ends behind its start, its children follow one another inside it,
and all points lie between characters. Then the ranges of the symbols nest in the same way: a
signature lies inside its symbol, a symbol inside the one around it, and siblings follow one
another.

Two things have to be shown for this. The nodes that carry a name or a body, wherever they are
found, lie inside the node of their symbol. And the way from points to positions keeps their order:
it counts code units in the place of bytes, except behind a carriage return at the end of a row,
where the number of bytes stands and is at least as large.
-/

namespace FunctionMeter

/-! ## From points to positions -/

namespace Text

/-- The column that stands for a byte offset of a row. -/
def columnAt (row : List Char) (offset : Nat) : Nat :=
  (columnOfByte? (chomp row) offset).getD offset

theorem columnOfByte?_append (a b : List Char) :
    columnOfByte? (a ++ b) (byteCount a) = some (unitCount a) := by
  rw [columnOfByte?, splitAtByte?_append, Option.map_some]

/-- Inside a row, columns count code units. -/
theorem columnAt_of_inside (a : List Char) {b : List Char} (inside : b ≠ []) :
    columnAt (a ++ b) (byteCount a) = unitCount a := by
  rw [columnAt, chomp_append a inside, columnOfByte?_append, Option.getD_some]

/-- At the end of a row the carriage return makes the difference: the boundary behind it does not
exist in the content of the row. -/
theorem columnAt_end (row : List Char) :
    columnAt row (byteCount row) =
      if row.getLast? = some '\r' then byteCount row else unitCount row := by
  rw [columnAt, chomp]
  split
  · rename_i ends
    have size : byteCount row = byteCount row.dropLast + byteCount ['\r'] := by
      rw [← byteCount_append, List.dropLast_append_getLast? _ ends]
    have beyond : columnOfByte? row.dropLast (byteCount row) = none := by
      rw [columnOfByte?, Option.map_eq_none_iff, Option.eq_none_iff_forall_ne_some]
      rintro ⟨before, after⟩ cut
      obtain ⟨content, same⟩ := splitAtByte?_eq_some cut
      rw [content, byteCount_append, same] at size
      have mark : byteCount ['\r'] = 1 := by decide
      omega
    rw [beyond, Option.getD_none]
  · have whole := columnOfByte?_append row []
    rw [List.append_nil] at whole
    rw [whole, Option.getD_some]

theorem unitCount_le_columnAt (a b : List Char) :
    unitCount a ≤ columnAt (a ++ b) (byteCount a) := by
  by_cases last : b = []
  · rw [last, List.append_nil, columnAt_end]
    split
    · exact unitCount_le_byteCount a
    · exact le_rfl
  · rw [columnAt_of_inside a last]

theorem columnAt_le_byteCount (a b : List Char) :
    columnAt (a ++ b) (byteCount a) ≤ byteCount a := by
  by_cases last : b = []
  · rw [last, List.append_nil, columnAt_end]
    split
    · exact le_rfl
    · exact unitCount_le_byteCount a
  · rw [columnAt_of_inside a last]
    exact unitCount_le_byteCount a

/-- Of two boundaries of a row, the later one has the later column. -/
theorem columnAt_mono {a b c d : List Char} (same : a ++ b = c ++ d)
    (ordered : byteCount a ≤ byteCount c) :
    columnAt (a ++ b) (byteCount a) ≤ columnAt (c ++ d) (byteCount c) := by
  obtain ⟨e, rfl, rfl⟩ := exists_append_of_byteCount_le same ordered
  by_cases equal : e = []
  · rw [equal, List.append_nil, List.nil_append]
  · have inside : e ++ d ≠ [] := by simp [equal]
    calc columnAt (a ++ (e ++ d)) (byteCount a) = unitCount a := columnAt_of_inside a inside
      _ ≤ unitCount (a ++ e) := by rw [unitCount_append]; exact Nat.le_add_right _ _
      _ ≤ columnAt (a ++ e ++ d) (byteCount (a ++ e)) := unitCount_le_columnAt _ _

end Text

namespace Point

/-- Whether a point is a character boundary of a row. Its row and its column are words, as those of
positions are. -/
def isBoundary (rows : List (List Char)) (p : Point) : Bool :=
  p.row < UInt32.size && p.column < UInt32.size &&
    (rows[p.row]?.bind fun row => Text.splitAtByte? row p.column).isSome

theorem exists_of_isBoundary {rows : List (List Char)} {p : Point}
    (boundary : p.isBoundary rows = true) :
    p.row < UInt32.size ∧ p.column < UInt32.size ∧ ∃ before after,
      rows[p.row]? = some (before ++ after) ∧ p.column = Text.byteCount before := by
  simp only [isBoundary, Bool.and_eq_true, decide_eq_true_eq, Option.isSome_iff_exists,
    Option.bind_eq_some_iff] at boundary
  obtain ⟨⟨row, column⟩, ⟨before, after⟩, line, found, cut⟩ := boundary
  obtain ⟨rfl, size⟩ := Text.splitAtByte?_eq_some cut
  exact ⟨row, column, before, after, found, size⟩

end Point

namespace Document

variable {d : Document} {p q : Point}

/-- The lines of a text with their carriage returns. -/
def rows (d : Document) : List (List Char) := Text.rawLines d.text.toList

theorem position_eq {row : List Char} (found : d.rows[p.row]? = some row) :
    position d.lines p = ⟨UInt32.ofNat p.row, UInt32.ofNat (Text.columnAt row p.column)⟩ := by
  have line : d.lines[p.row]? = some (String.ofList (Text.chomp row)) := by
    rw [lines, Text.lines, List.map_map, List.getElem?_map, ← rows, found]
    rfl
  rw [position, line]
  simp only [String.toList_ofList]
  rfl

/-- Points of a text and their positions are in the same order. -/
theorem position_le (first : p.isBoundary d.rows = true) (second : q.isBoundary d.rows = true)
    (ordered : p.le q = true) : (position d.lines p).le (position d.lines q) = true := by
  obtain ⟨rowP, columnP, a, b, foundP, sizeP⟩ := Point.exists_of_isBoundary first
  obtain ⟨rowQ, columnQ, a', b', foundQ, sizeQ⟩ := Point.exists_of_isBoundary second
  have boundP : Text.columnAt (a ++ b) p.column < UInt32.size := by
    rw [sizeP] at columnP ⊢
    exact (Text.columnAt_le_byteCount a b).trans_lt columnP
  have boundQ : Text.columnAt (a' ++ b') q.column < UInt32.size := by
    rw [sizeQ] at columnQ ⊢
    exact (Text.columnAt_le_byteCount a' b').trans_lt columnQ
  rw [position_eq foundP, position_eq foundQ, Position.le_iff]
  simp only [UInt32.toNat_ofNat_of_lt' rowP, UInt32.toNat_ofNat_of_lt' rowQ,
    UInt32.toNat_ofNat_of_lt' boundP, UInt32.toNat_ofNat_of_lt' boundQ]
  rcases Point.le_iff.mp ordered with earlier | ⟨same, columns⟩
  · exact .inl earlier
  · rw [same, foundQ, Option.some.injEq] at foundP
    refine .inr ⟨same, ?_⟩
    rw [sizeP, sizeQ] at columns ⊢
    exact Text.columnAt_mono foundP.symm columns

end Document

/-! ## Well-formed trees -/

namespace Node

variable {rows : List (List Char)} {m n : Node} {p : Point}

mutual

/-- Whether a node and everything below it is well-formed in a text: it ends behind its start, both
are character boundaries, and the children follow one another inside it. -/
def isWellFormed (rows : List (List Char)) : Node → Bool
  | ⟨_, _, start, stop, _, children⟩ =>
    start.isBoundary rows && stop.isBoundary rows && areWellFormed rows start stop children

/-- Whether well-formed nodes follow one another between two points. -/
def areWellFormed (rows : List (List Char)) (start stop : Point) : List Node → Bool
  | [] => start.le stop
  | n :: nodes => start.le n.start && isWellFormed rows n && areWellFormed rows n.stop stop nodes

end

/-- A node is another one or stands somewhere below it, whether named or not. -/
inductive Below : Node → Node → Prop
  | refl (n : Node) : Below n n
  | child {m c n : Node} (member : c ∈ n.children) (below : Below m c) : Below m n

theorem below_of_mem_preorderAll {n : Node} {nodes : List Node}
    (member : n ∈ preorderAll nodes) : ∃ top ∈ nodes, n.Below top := by
  induction nodes using forest_induction with
  | nil => cases member
  | cons m nodes children later =>
      rcases List.mem_append.mp member with here | behind
      · cases named : m.named with
        | false =>
            rw [preorder_of_unnamed named] at here
            cases here
        | true =>
            rw [preorder_of_named named] at here
            rcases List.mem_cons.mp here with rfl | below
            · exact ⟨n, List.mem_cons_self, .refl n⟩
            · obtain ⟨top, inside, below⟩ := children below
              exact ⟨m, List.mem_cons_self, .child inside below⟩
      · obtain ⟨top, inside, below⟩ := later behind
        exact ⟨top, List.mem_cons_of_mem m inside, below⟩

/-- A point is a character boundary inside a node. -/
structure Holds (rows : List (List Char)) (n : Node) (p : Point) : Prop where
  boundary : p.isBoundary rows = true
  start : n.start.le p = true
  stop : p.le n.stop = true

theorem isWellFormed_iff : n.isWellFormed rows = true ↔
    n.start.isBoundary rows = true ∧ n.stop.isBoundary rows = true ∧
      areWellFormed rows n.start n.stop n.children = true := by
  cases n
  simp only [isWellFormed, Bool.and_eq_true, and_assoc]

theorem areWellFormed_cons {start stop : Point} {nodes : List Node} :
    areWellFormed rows start stop (n :: nodes) = true ↔
      start.le n.start = true ∧ n.isWellFormed rows = true ∧
        areWellFormed rows n.stop stop nodes = true := by
  simp only [areWellFormed, Bool.and_eq_true, and_assoc]

theorem le_of_areWellFormed {start stop : Point} {nodes : List Node}
    (formed : areWellFormed rows start stop nodes = true) : start.le stop = true := by
  induction nodes using forest_induction generalizing start stop with
  | nil => rwa [areWellFormed] at formed
  | cons n nodes children later =>
      obtain ⟨behind, own, rest⟩ := areWellFormed_cons.mp formed
      obtain ⟨-, -, inner⟩ := isWellFormed_iff.mp own
      exact Point.le_trans behind (Point.le_trans (children inner) (later rest))

theorem le_of_isWellFormed (formed : n.isWellFormed rows = true) : n.start.le n.stop = true :=
  le_of_areWellFormed (isWellFormed_iff.mp formed).2.2

theorem areWellFormed_mem {start stop : Point} {nodes : List Node}
    (formed : areWellFormed rows start stop nodes = true) (member : n ∈ nodes) :
    n.isWellFormed rows = true ∧ start.le n.start = true ∧ n.stop.le stop = true := by
  induction nodes generalizing start with
  | nil => cases member
  | cons m nodes ih =>
      obtain ⟨behind, own, rest⟩ := areWellFormed_cons.mp formed
      rcases List.mem_cons.mp member with rfl | later
      · exact ⟨own, behind, le_of_areWellFormed rest⟩
      · obtain ⟨inner, starts, stops⟩ := ih rest later
        exact ⟨inner, Point.le_trans behind (Point.le_trans (le_of_isWellFormed own) starts), stops⟩

/-- What stands below a node lies inside it. -/
theorem Below.inside (below : Below m n) (formed : n.isWellFormed rows = true) :
    m.isWellFormed rows = true ∧ n.start.le m.start = true ∧ m.stop.le n.stop = true := by
  induction below with
  | refl => exact ⟨formed, Point.le_refl _, Point.le_refl _⟩
  | child member below ih =>
      obtain ⟨own, starts, stops⟩ := areWellFormed_mem (isWellFormed_iff.mp formed).2.2 member
      obtain ⟨inner, innerStarts, innerStops⟩ := ih own
      exact ⟨inner, Point.le_trans starts innerStarts, Point.le_trans innerStops stops⟩

theorem Below.holds_start (below : Below m n) (formed : n.isWellFormed rows = true) :
    Holds rows n m.start := by
  obtain ⟨own, starts, stops⟩ := below.inside formed
  exact ⟨(isWellFormed_iff.mp own).1, starts, Point.le_trans (le_of_isWellFormed own) stops⟩

theorem Below.holds_stop (below : Below m n) (formed : n.isWellFormed rows = true) :
    Holds rows n m.stop := by
  obtain ⟨own, starts, stops⟩ := below.inside formed
  exact ⟨(isWellFormed_iff.mp own).2.1, Point.le_trans starts (le_of_isWellFormed own), stops⟩

/-! ## Where names and bodies are found -/

theorem Below.of_mem (member : m ∈ n.children) : Below m n := .child member (.refl m)

theorem below_of_field? {name : String} (found : n.field? name = some m) : Below m n :=
  .of_mem (mem_children_of_field? found)

/-- A child in a role and the child before it are children. -/
theorem below_of_fieldWithPrevious? {name : String} {previous : Option Node}
    (found : n.fieldWithPrevious? name = some (m, previous)) :
    Below m n ∧ ∀ p, previous = some p → Below p n := by
  have child : n.field? name = some m := by rw [field?, found, Option.map_some]
  refine ⟨below_of_field? child, ?_⟩
  simp only [fieldWithPrevious?, Option.bind_eq_bind, Option.bind_eq_some_iff, Option.some.injEq,
    Prod.mk.injEq] at found
  obtain ⟨i, -, child, -, -, rfl⟩ := found
  intro p same
  split at same
  · cases same
  · exact .of_mem (List.mem_of_getElem? same)

theorem below_of_innermostDeclarator (found : n.innermostDeclarator = some m) : Below m n := by
  fun_induction innermostDeclarator n with
  | case1 n inner field ih => exact .child (mem_children_of_field? field) (ih found)
  | case2 n none ends inner last ih => exact .child (mem_children_of_last_named last) (ih found)
  | case3 => cases found
  | case4 n none ends =>
      obtain rfl := Option.some.inj found
      exact .refl n

end Node

namespace Language

variable {language : Language} {node n : Node}

theorem nameNode_below (found : language.nameNode node = some n) : n.Below node := by
  simp only [nameNode] at found
  split_ifs at found
  · exact Node.below_of_field? found
  · obtain ⟨declarator, field, innermost⟩ := Option.bind_eq_some_iff.mp found
    exact .child (Node.mem_children_of_field? field) (Node.below_of_innermostDeclarator innermost)
  · exact Node.below_of_field? found
  · exact Node.below_of_field? found
  · exact Node.below_of_field? found

theorem bodyNode_below {previous : Option Node}
    (found : language.bodyNode node = some (n, previous)) :
    n.Below node ∧ ∀ p, previous = some p → p.Below node := by
  rw [bodyNode] at found
  split at found
  · obtain ⟨value, field, body⟩ := Option.bind_eq_some_iff.mp found
    have member := Node.mem_children_of_field? field
    obtain ⟨inner, before⟩ := Node.below_of_fieldWithPrevious? body
    exact ⟨.child member inner, fun p same => .child member (before p same)⟩
  · exact Node.below_of_fieldWithPrevious? found

end Language

/-! ## Ranges of symbols -/

namespace Symbol

/-- A symbol ends where another one starts, or before. -/
def Precedes (s t : Symbol) : Prop := s.fullRange.stop.le t.fullRange.start = true

/-- A symbol lies between two positions. -/
def Between (start stop : Position) (s : Symbol) : Prop :=
  start.le s.fullRange.start = true ∧ s.fullRange.stop.le stop = true

/-- The ranges of a symbol and of its children are nested, and the children follow one another. -/
structure Nested (s : Symbol) : Prop where
  starts : s.fullRange.start.le s.signatureRange.start = true
  ordered : s.signatureRange.start.le s.signatureRange.stop = true
  stops : s.signatureRange.stop.le s.fullRange.stop = true
  inside : ∀ t ∈ s.children, Between s.fullRange.start s.fullRange.stop t
  apart : s.children.Pairwise Precedes

/-- A signature that does not end before its symbol is not moved. -/
theorem Nested.signatureEndLine {s : Symbol} (h : s.Nested) :
    s.signatureEndLine = s.signatureRange.stop.line := by
  have behind := Position.line_le (Position.le_trans h.starts h.ordered)
  rw [Symbol.signatureEndLine, if_neg (UInt32.not_lt.mpr behind)]

/-- The symbols of a forest follow one another between two positions, and all their ranges are
nested. -/
structure Fits (start stop : Position) (forest : List Symbol) : Prop where
  between : ∀ s ∈ forest, Between start stop s
  apart : forest.Pairwise Precedes
  nested : ∀ s ∈ preorderAll forest, s.Nested

namespace Fits

variable {a b c : Position} {forest later : List Symbol} {s : Symbol}

theorem nil (a b : Position) : Fits a b [] := ⟨nofun, .nil, nofun⟩

theorem widen (h : Fits b c forest) (before : a.le b = true) : Fits a c forest := by
  refine ⟨fun s member => ?_, h.apart, h.nested⟩
  exact ⟨Position.le_trans before (h.between s member).1, (h.between s member).2⟩

theorem append (h : Fits a b forest) (h' : Fits b c later) (ordered : a.le b = true)
    (behind : b.le c = true) : Fits a c (forest ++ later) := by
  refine ⟨?_, ?_, ?_⟩
  · intro s member
    rcases List.mem_append.mp member with first | second
    · exact ⟨(h.between s first).1, Position.le_trans (h.between s first).2 behind⟩
    · exact (h'.widen ordered).between s second
  · refine List.pairwise_append.mpr ⟨h.apart, h'.apart, ?_⟩
    intro s first t second
    exact Position.le_trans (h.between s first).2 (h'.between t second).1
  · intro s member
    rw [preorderAll_append] at member
    rcases List.mem_append.mp member with first | second
    · exact h.nested s first
    · exact h'.nested s second

theorem singleton (own : s.Nested)
    (below : Fits s.fullRange.start s.fullRange.stop s.children) :
    Fits s.fullRange.start s.fullRange.stop [s] := by
  refine ⟨?_, List.pairwise_singleton _ _, ?_⟩
  · intro t member
    rw [List.mem_singleton.mp member]
    exact ⟨Position.le_refl _, Position.le_refl _⟩
  · intro t member
    rw [preorderAll_cons, preorderAll, List.append_nil, List.mem_cons] at member
    rcases member with rfl | inner
    · exact own
    · exact below.nested t inner

end Fits

end Symbol

namespace Source

variable {language : Language} {d : Document} {node : Node}

/-- A signature starts where a node starts, its symbol's own or one below. -/
theorem exists_below_signatureStart (source : Source) (node : Node) :
    ∃ m : Node, m.Below node ∧ source.signatureStart node = m.start := by
  rw [signatureStart]
  split
  · rename_i n found
    exact ⟨n, Language.nameNode_below found, rfl⟩
  · exact ⟨node, .refl node, rfl⟩

/-- A signature ends at one end of a node, its symbol's own or one below. -/
theorem exists_below_signatureEnd (source : Source) (node : Node) (role : Role) :
    ∃ m : Node, m.Below node ∧
      (source.signatureEnd node role = m.start ∨ source.signatureEnd node role = m.stop) := by
  cases role with
  | container =>
      rw [signatureEnd]
      split
      · rename_i n found
        exact ⟨n, Language.nameNode_below found, .inr rfl⟩
      · exact ⟨node, .refl node, .inl rfl⟩
  | callable base =>
      rw [signatureEnd]
      split
      · rename_i body previous found
        exact ⟨previous, (Language.bodyNode_below found).2 previous rfl, .inr rfl⟩
      · rename_i body found
        exact ⟨body, (Language.bodyNode_below found).1, .inl rfl⟩
      · exact ⟨node, .refl node, .inr rfl⟩

theorem holds_signatureStart (source : Source) {rows : List (List Char)}
    (formed : node.isWellFormed rows = true) : node.Holds rows (source.signatureStart node) := by
  obtain ⟨m, below, same⟩ := source.exists_below_signatureStart node
  rw [same]
  exact below.holds_start formed

theorem holds_signatureEnd (source : Source) {rows : List (List Char)} (role : Role)
    (formed : node.isWellFormed rows = true) :
    node.Holds rows (source.signatureEnd node role) := by
  obtain ⟨m, below, same | same⟩ := source.exists_below_signatureEnd node role
  · rw [same]
    exact below.holds_start formed
  · rw [same]
    exact below.holds_stop formed

theorem position_le (language : Language) {p q : Point} (first : p.isBoundary d.rows = true)
    (second : q.isBoundary d.rows = true) (ordered : p.le q = true) :
    ((ofDocument language d).position p).le ((ofDocument language d).position q) = true :=
  Document.position_le first second ordered

/-- Every symbol of a tree stands for a node below the root. -/
theorem exists_standsFor {source : Source} {root : Node} {s : Symbol}
    (member : s ∈ Symbol.preorderAll (source.symbols root)) :
    ∃ node : Node, node.Below root ∧ source.StandsFor s node := by
  have standing := source.preorderAll_ofNodes none root.children
  obtain ⟨i, bound, rfl⟩ := List.getElem_of_mem member
  have bound' := standing.length_eq ▸ bound
  obtain ⟨inside, -⟩ := List.mem_filter.mp (List.get_mem _ ⟨i, bound'⟩)
  obtain ⟨top, child, below⟩ := Node.below_of_mem_preorderAll inside
  exact ⟨_, .child child below, standing.get bound bound'⟩

/-- The ranges of a symbol are nested if the symbols below it fit into its node. -/
theorem nested_symbol (role : Role) (enclosing : Option (Role × String)) {below : List Symbol}
    (formed : node.isWellFormed d.rows = true)
    (fits : Symbol.Fits ((ofDocument language d).position node.start)
      ((ofDocument language d).position node.stop) below) :
    ((ofDocument language d).symbol node role enclosing below).Nested := by
  obtain ⟨startBoundary, stopBoundary, -⟩ := Node.isWellFormed_iff.mp formed
  have start := holds_signatureStart (ofDocument language d) formed
  have stop := holds_signatureEnd (ofDocument language d) role formed
  refine ⟨?_, Position.le_max_right _ _, Position.max_le ?_ ?_, fits.between, fits.apart⟩
  · exact position_le language startBoundary start.boundary start.start
  · exact position_le language stop.boundary stopBoundary stop.stop
  · exact position_le language start.boundary stopBoundary start.stop

/-- The symbols of nodes that follow one another between two points fit between the positions of
these points. -/
theorem fits_ofNodes (enclosing : Option (Role × String)) {start stop : Point} {nodes : List Node}
    (formed : Node.areWellFormed d.rows start stop nodes = true)
    (startBoundary : start.isBoundary d.rows = true)
    (stopBoundary : stop.isBoundary d.rows = true) :
    Symbol.Fits ((ofDocument language d).position start) ((ofDocument language d).position stop)
      ((ofDocument language d).ofNodes enclosing nodes) := by
  induction nodes using Node.forest_induction generalizing start stop enclosing with
  | nil =>
      rw [ofNodes]
      exact .nil _ _
  | cons n nodes children later =>
      obtain ⟨behind, own, rest⟩ := Node.areWellFormed_cons.mp formed
      obtain ⟨nStart, nStop, inner⟩ := Node.isWellFormed_iff.mp own
      have around : ∀ enclosing, Symbol.Fits ((ofDocument language d).position n.start)
          ((ofDocument language d).position n.stop)
          ((ofDocument language d).ofNodes enclosing n.children) :=
        fun enclosing => children enclosing inner nStart nStop
      have first : Symbol.Fits ((ofDocument language d).position n.start)
          ((ofDocument language d).position n.stop)
          ((ofDocument language d).ofNode enclosing n) := by
        cases named : n.named with
        | false =>
            rw [ofNode_of_unnamed enclosing named]
            exact .nil _ _
        | true =>
            cases has : (ofDocument language d).language.role n with
            | none =>
                rw [ofNode_of_none enclosing named has]
                exact around enclosing
            | some role =>
                rw [ofNode_of_role enclosing named has]
                exact .singleton (nested_symbol role enclosing own (around _)) (around _)
      rw [ofNodes]
      refine (first.widen (position_le language startBoundary nStart behind)).append
        (later enclosing rest nStop stopBoundary) ?_ ?_
      · exact position_le language startBoundary nStop
          (Point.le_trans behind (Node.le_of_isWellFormed own))
      · exact position_le language nStop stopBoundary (Node.le_of_areWellFormed rest)

/-- For every text and every tree that is well-formed in it, the symbols of the tree follow one
another, and of each symbol the signature and the children lie inside it, the children again
following one another. The line on which a signature ends is therefore taken as it is. -/
theorem symbols_nested (language : Language) (d : Document) (root : Node)
    (formed : root.isWellFormed (Text.rawLines d.text.toList) = true) :
    ((ofDocument language d).symbols root).Pairwise Symbol.Precedes ∧
      ∀ s ∈ Symbol.preorderAll ((ofDocument language d).symbols root),
        s.Nested ∧ s.signatureEndLine = s.signatureRange.stop.line := by
  obtain ⟨start, stop, children⟩ := Node.isWellFormed_iff.mp formed
  have fits : Symbol.Fits ((ofDocument language d).position root.start)
      ((ofDocument language d).position root.stop) ((ofDocument language d).symbols root) :=
    fits_ofNodes none children start stop
  refine ⟨fits.apart, ?_⟩
  intro s member
  exact ⟨fits.nested s member, (fits.nested s member).signatureEndLine⟩

/-- A module around a function. Its lines end with two characters, and the comment on the first line
goes up to the line feed. -/
def moduleText : Document :=
  ⟨⟨"untitled", none, "module.rs", none, none⟩, 1,
    "mod m \x7b // 𝄞\r\nfn f() -> u8 \x7b\r\n0\r\n\x7d\r\n\x7d\r\n"⟩

def moduleTree : Node :=
  ⟨"source_file", true, ⟨0, 0⟩, ⟨5, 0⟩, [],
    [⟨"mod_item", true, ⟨0, 0⟩, ⟨4, 1⟩, [("name", 1), ("body", 2)],
      [⟨"mod", false, ⟨0, 0⟩, ⟨0, 3⟩, [], []⟩,
        ⟨"identifier", true, ⟨0, 4⟩, ⟨0, 5⟩, [], []⟩,
        ⟨"declaration_list", true, ⟨0, 6⟩, ⟨4, 1⟩, [],
          [⟨"\x7b", false, ⟨0, 6⟩, ⟨0, 7⟩, [], []⟩,
            ⟨"line_comment", true, ⟨0, 8⟩, ⟨0, 16⟩, [], []⟩,
            ⟨"function_item", true, ⟨1, 0⟩, ⟨3, 1⟩, [("name", 1), ("body", 5)],
              [⟨"fn", false, ⟨1, 0⟩, ⟨1, 2⟩, [], []⟩,
                ⟨"identifier", true, ⟨1, 3⟩, ⟨1, 4⟩, [], []⟩,
                ⟨"parameters", true, ⟨1, 4⟩, ⟨1, 6⟩, [], []⟩,
                ⟨"->", false, ⟨1, 7⟩, ⟨1, 9⟩, [], []⟩,
                ⟨"primitive_type", true, ⟨1, 10⟩, ⟨1, 12⟩, [], []⟩,
                ⟨"block", true, ⟨1, 13⟩, ⟨3, 1⟩, [], []⟩]⟩,
            ⟨"\x7d", false, ⟨4, 0⟩, ⟨4, 1⟩, [], []⟩]⟩]⟩]⟩

theorem symbols_nested_module :
    moduleTree.isWellFormed (Text.rawLines moduleText.text.toList) = true ∧
      (Symbol.preorderAll ((ofDocument .rust moduleText).symbols moduleTree)).length = 2 ∧
      ∀ s ∈ Symbol.preorderAll ((ofDocument .rust moduleText).symbols moduleTree), s.Nested := by
  have formed : moduleTree.isWellFormed (Text.rawLines moduleText.text.toList) = true := by decide
  refine ⟨formed, by decide, ?_⟩
  intro s member
  exact ((symbols_nested .rust moduleText moduleTree formed).2 s member).1

end Source

end FunctionMeter
