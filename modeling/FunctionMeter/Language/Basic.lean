/-!
# Languages

The languages whose functions can be found in a syntax tree, and the file extensions by which they
are recognised. Extensions are compared as they are: callers bring them to small letters first.
-/

namespace FunctionMeter

inductive Language where
  | rust
  | python
  | javaScript
  | typeScript
  | tsx
  | go
  | java
  | c
  | cpp
  | cSharp
  deriving DecidableEq, Repr, Inhabited

namespace Language

/-- The extensions of each language, in the order in which they are listed for the user. -/
def byExtension : List (String × Language) :=
  [("rs", .rust),
   ("py", .python), ("pyi", .python),
   ("js", .javaScript), ("jsx", .javaScript), ("mjs", .javaScript), ("cjs", .javaScript),
   ("ts", .typeScript), ("mts", .typeScript), ("cts", .typeScript), ("tsx", .tsx),
   ("go", .go),
   ("java", .java),
   ("c", .c), ("h", .c),
   ("cpp", .cpp), ("cc", .cpp), ("cxx", .cpp), ("c++", .cpp), ("hpp", .cpp), ("hh", .cpp),
   ("hxx", .cpp), ("h++", .cpp),
   ("cs", .cSharp)]

def ofExtension? (extension : String) : Option Language := byExtension.lookup extension

def extensions : List String := byExtension.map (·.1)

def name : Language → String
  | .rust => "Rust"
  | .python => "Python"
  | .javaScript => "JavaScript"
  | .typeScript => "TypeScript"
  | .tsx => "TSX"
  | .go => "Go"
  | .java => "Java"
  | .c => "C"
  | .cpp => "C++"
  | .cSharp => "C#"

/-- The languages that share the grammar of JavaScript. -/
def isScript : Language → Bool
  | .javaScript | .typeScript | .tsx => true
  | _ => false

end Language

end FunctionMeter
