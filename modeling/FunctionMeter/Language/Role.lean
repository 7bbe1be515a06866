import FunctionMeter.Language.Basic
import FunctionMeter.Symbol
import FunctionMeter.Tree.Node

/-!
# Roles of syntax nodes

What a language makes of a syntax node: whether it is something to measure or something that holds
such things, which node carries its name and which its body, and how its name and surroundings
refine its kind.
-/

namespace FunctionMeter

/-- How a node takes part in the symbol tree. -/
inductive Role where
  /-- Something to measure, with the kind that its grammar gives it. -/
  | callable (base : SymbolKind)
  /-- A scope that only groups other symbols. -/
  | container
  deriving DecidableEq, Repr

namespace Role

def isContainer : Role → Bool
  | .container => true
  | .callable _ => false

end Role

namespace Node

/-- Whether a node binds a function to a name, as in `const f = () => {}`. -/
def bindsFunction (n : Node) : Bool :=
  match n.field? "value" with
  | some value =>
    ["arrow_function", "function_expression", "function", "generator_function"].contains value.kind
  | none => false

theorem sizeOf_lt_of_mem_children {child n : Node} (h : child ∈ n.children) :
    sizeOf child < sizeOf n := by
  cases n
  have := List.sizeOf_lt_of_mem h
  simp only [Node.mk.sizeOf_spec] at *
  omega

theorem mem_children_of_field? {n child : Node} {name : String}
    (h : n.field? name = some child) : child ∈ n.children := by
  simp only [field?, fieldWithPrevious?, Option.map_eq_some_iff] at h
  obtain ⟨⟨c, p⟩, h, rfl⟩ := h
  simp only [Option.bind_eq_bind, Option.bind_eq_some_iff, Option.some.injEq, Prod.mk.injEq] at h
  obtain ⟨i, -, c', hc, rfl, -⟩ := h
  exact List.mem_of_getElem? hc

theorem mem_children_of_last_named {n child : Node}
    (h : n.namedChildren.getLast? = some child) : child ∈ n.children :=
  (List.mem_filter.1 (List.mem_of_getLast? h)).1

/-- Follows nested declarators, such as those of pointers and parameter lists, down to what is
declared. A declarator without a field for its inner one has it as its last named child. -/
def innermostDeclarator (n : Node) : Option Node :=
  match _h : n.field? "declarator" with
  | some inner => innermostDeclarator inner
  | none =>
    if n.kind.toList.reverse.take 11 = "_declarator".toList.reverse then
      match _h : n.namedChildren.getLast? with
      | some inner => innermostDeclarator inner
      | none => none
    else some n
termination_by sizeOf n
decreasing_by
  · exact sizeOf_lt_of_mem_children (mem_children_of_field? _h)
  · exact sizeOf_lt_of_mem_children (mem_children_of_last_named _h)

end Node

namespace Language

/-- The role of a node, whatever stands around it. -/
def role (language : Language) (node : Node) : Option Role :=
  match language with
  | .rust =>
    match node.kind with
    | "function_item" | "function_signature_item" => some (.callable .function)
    | "impl_item" | "trait_item" | "mod_item" => some .container
    | _ => none
  | .python =>
    match node.kind with
    | "function_definition" => some (.callable .function)
    | "class_definition" => some .container
    | _ => none
  | .javaScript | .typeScript | .tsx =>
    match node.kind with
    | "function_declaration" | "generator_function_declaration" => some (.callable .function)
    | "method_definition" | "method_signature" | "abstract_method_signature" =>
      some (.callable .method)
    | "variable_declarator" => if node.bindsFunction then some (.callable .function) else none
    | "field_definition" | "public_field_definition" | "pair" =>
      if node.bindsFunction then some (.callable .method) else none
    | "class_declaration" | "class" | "abstract_class_declaration" | "interface_declaration"
    | "internal_module" | "module" => some .container
    | _ => none
  | .go =>
    match node.kind with
    | "function_declaration" => some (.callable .function)
    | "method_declaration" => some (.callable .method)
    | _ => none
  | .java =>
    match node.kind with
    | "method_declaration" => some (.callable .method)
    | "constructor_declaration" | "compact_constructor_declaration" =>
      some (.callable .constructor)
    | "class_declaration" | "interface_declaration" | "enum_declaration" | "record_declaration" =>
      some .container
    | _ => none
  | .c =>
    match node.kind with
    | "function_definition" => some (.callable .function)
    | _ => none
  | .cpp =>
    match node.kind with
    | "function_definition" => some (.callable .function)
    | "class_specifier" | "struct_specifier" =>
      if (node.field? "body").isSome then some .container else none
    | "namespace_definition" => some .container
    | _ => none
  | .cSharp =>
    match node.kind with
    | "method_declaration" | "operator_declaration" | "destructor_declaration" =>
      some (.callable .method)
    | "constructor_declaration" => some (.callable .constructor)
    | "local_function_statement" => some (.callable .function)
    | "class_declaration" | "struct_declaration" | "interface_declaration" | "record_declaration"
    | "namespace_declaration" | "file_scoped_namespace_declaration" => some .container
    | _ => none

/-- The node that carries the name of a symbol. -/
def nameNode (language : Language) (node : Node) : Option Node :=
  if language = .rust ∧ node.kind = "impl_item" then node.field? "type"
  else if (language = .c ∨ language = .cpp) ∧ node.kind = "function_definition" then
    (node.field? "declarator").bind Node.innermostDeclarator
  else if language.isScript ∧ node.kind = "field_definition" then node.field? "property"
  else if language.isScript ∧ node.kind = "pair" then node.field? "key"
  else node.field? "name"

/-- The body of a callable with the node before it. Where a function is bound to a name, the body
is that of the function. -/
def bodyNode (language : Language) (node : Node) : Option (Node × Option Node) :=
  if language.isScript ∧
      ["variable_declarator", "field_definition", "public_field_definition", "pair"].contains
        node.kind then
    (node.field? "value").bind (·.fieldWithPrevious? "body")
  else node.fieldWithPrevious? "body"

/-- Divides reversed text at its first `::`. -/
def atScope : List Char → Option (List Char × List Char)
  | [] => none
  | ':' :: ':' :: rest => some ([], rest)
  | first :: rest => (atScope rest).map fun (before, after) => (first :: before, after)

/-- The last two segments of a scoped name, its owner and its own part. -/
def scopedName? (name : List Char) : Option (List Char × List Char) :=
  (atScope name.reverse).map fun (own, rest) =>
    match atScope rest with
    | some (owner, _) => (owner.reverse, own.reverse)
    | none => (rest.reverse, own.reverse)

/-- Inside a class a constructor has the name of the class; outside, it repeats its owner. -/
def isConstructorName (name : String) (className : Option String) : Bool :=
  match className with
  | some className => name = className
  | none =>
    match scopedName? name.toList with
    | some (owner, own) => own = owner
    | none => false

/-- Refines the kind of a callable by its name and the role and name of the enclosing symbol.
Grammars without methods of their own give functions; in a container these are methods. -/
def refineKind (language : Language) (base : SymbolKind) (name : String)
    (enclosing : Option (Role × String)) : SymbolKind :=
  let container := enclosing.filter (·.1.isContainer)
  match language with
  | .rust => if container.isSome then .method else base
  | .python =>
    if container.isSome then if name = "__init__" then .constructor else .method else base
  | .javaScript | .typeScript | .tsx =>
    if base = .method ∧ name = "constructor" then .constructor else base
  | .cpp =>
    if isConstructorName name (container.map (·.2)) then .constructor
    else if container.isSome then .method
    else base
  | _ => base

end Language

end FunctionMeter
