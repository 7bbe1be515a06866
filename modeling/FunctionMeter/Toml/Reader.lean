import FunctionMeter.Toml.Scalar
import FunctionMeter.Toml.Table

/-!
# Reading TOML

`Toml.read?` reads a TOML document as the JSON object that it denotes.
-/

namespace FunctionMeter.Toml

/-- Arrays and tables in braces nest less deep than this, and keys have fewer parts. -/
def depthLimit : Nat := 80

/-- Reads one part of a key: bare, or in quotation marks or apostrophes. -/
def readKeyPart? : List Char → Option (String × List Char)
  | '"' :: rest => (readQuoted? false false rest).map fun (cs, tail) => (String.ofList cs, tail)
  | '\'' :: rest => (readLiteral? false rest).map fun (cs, tail) => (String.ofList cs, tail)
  | cs =>
    let isKeyChar (c : Char) : Bool := c.isAlphanum || c == '_' || c == '-'
    let word := cs.takeWhile isKeyChar
    if word.isEmpty then none else some (String.ofList word, cs.dropWhile isKeyChar)

/-- Reads the parts of a key and the blanks around them; `fuel` bounds their number. -/
def readKeyParts? (fuel : Nat) (cs : List Char) : Option (List String × List Char) :=
  match fuel with
  | 0 => none
  | fuel + 1 =>
    match readKeyPart? (skipBlank cs) with
    | none => none
    | some (part, rest) =>
      match skipBlank rest with
      | '.' :: rest => (readKeyParts? fuel rest).map fun (parts, tail) => (part :: parts, tail)
      | rest => some ([part], rest)

/-- Reads a key as the path to its table and its last part. -/
def readKey? (cs : List Char) : Option (List String × String × List Char) :=
  match readKeyParts? (depthLimit - 1) cs with
  | some (parts, rest) => parts.getLast?.map fun last => (parts.dropLast, last, rest)
  | none => none

/-- What follows a comment, which ends before its line ending. -/
def afterComment? (cs : List Char) : Option (List Char) :=
  let rest := cs.dropWhile isPlain
  if rest.isEmpty || (afterNewline? rest).isSome then some rest else none

/-- Skips blanks, line endings and comments; `fuel` bounds their number. -/
def skipLines? (fuel : Nat) (cs : List Char) : Option (List Char) :=
  match fuel with
  | 0 => none
  | fuel + 1 =>
    match skipBlank cs with
    | '#' :: rest => (afterComment? rest).bind (skipLines? fuel)
    | '\n' :: rest => skipLines? fuel rest
    | '\r' :: '\n' :: rest => skipLines? fuel rest
    | rest => some rest

mutual

/-- Reads a value; `depth` bounds the nesting and `fuel` the number of calls. -/
def readValue? (fuel depth : Nat) (cs : List Char) : Option (Json × List Char) :=
  match fuel with
  | 0 => none
  | fuel + 1 =>
    match cs with
    | '[' :: rest =>
      match depth with
      | 0 => none
      | depth + 1 => (readItems? fuel depth rest).map fun (items, tail) => (.arr items, tail)
    | '{' :: rest =>
      match depth with
      | 0 => none
      | depth + 1 =>
        match skipBlank rest with
        | '}' :: tail => some (.obj [], tail)
        | rest => (readPairs? fuel depth [] rest).map fun (entries, tail) =>
            (.obj (entriesToJson entries), tail)
    | '"' :: rest => (readString? ('"' :: rest)).map fun (s, tail) => (.str (String.ofList s), tail)
    | '\'' :: rest =>
      (readString? ('\'' :: rest)).map fun (s, tail) => (.str (String.ofList s), tail)
    | cs => readToken? cs

/-- Reads the items of an array up to its closing bracket; a comma may stand behind the last. -/
def readItems? (fuel depth : Nat) (cs : List Char) : Option (List Json × List Char) :=
  match fuel with
  | 0 => none
  | fuel + 1 =>
    match skipLines? (cs.length + 1) cs with
    | none => none
    | some (']' :: tail) => some ([], tail)
    | some rest =>
      match readValue? fuel depth rest with
      | none => none
      | some (item, rest) =>
        match skipLines? (rest.length + 1) rest with
        | some (']' :: tail) => some ([item], tail)
        | some (',' :: rest) =>
          (readItems? fuel depth rest).map fun (items, tail) => (item :: items, tail)
        | _ => none

/-- Reads the pairs of a table in braces, which has at least one, and its closing brace. -/
def readPairs? (fuel depth : Nat) (entries : Entries) (cs : List Char) :
    Option (Entries × List Char) :=
  match fuel with
  | 0 => none
  | fuel + 1 =>
    match readKey? cs with
    | some (path, key, '=' :: rest) =>
      match readValue? fuel depth (skipBlank rest) with
      | none => none
      | some (value, rest) =>
        match entries.add path key value with
        | none => none
        | some entries =>
          match skipBlank rest with
          | '}' :: tail => some (entries, tail)
          | ',' :: rest => readPairs? fuel depth entries rest
          | _ => none
    | _ => none

end

/-- The end of a line behind a header or a pair. -/
def endOfLine? (cs : List Char) : Option (List Char) :=
  match skipBlank cs with
  | [] => some []
  | '#' :: rest => afterComment? rest
  | rest => if (afterNewline? rest).isSome then some rest else none

/-- The document so far, and the header under which its next pairs stand. -/
structure Progress where
  root : Entries
  header : List String

/-- Reads one header or pair. -/
def readExpression? (progress : Progress) (cs : List Char) : Option (Progress × List Char) :=
  match cs with
  | '[' :: '[' :: rest =>
    match readKey? rest with
    | some (path, key, ']' :: ']' :: tail) =>
      (progress.root.openElement path key).map fun root => (⟨root, path ++ [key]⟩, tail)
    | _ => none
  | '[' :: rest =>
    match readKey? rest with
    | some (path, key, ']' :: tail) =>
      (progress.root.openTable path key).map fun root => (⟨root, path ++ [key]⟩, tail)
    | _ => none
  | cs =>
    match readKey? cs with
    | some (path, key, '=' :: rest) =>
      match readValue? (2 * rest.length + 2) (depthLimit - 1) (skipBlank rest) with
      | some (value, tail) =>
        (progress.root.addBelow progress.header path key value).map fun root =>
          (⟨root, progress.header⟩, tail)
      | none => none
    | _ => none

/-- Reads headers and pairs, one on a line; `fuel` bounds their number. -/
def readExpressions? (fuel : Nat) (progress : Progress) (cs : List Char) : Option Entries :=
  match fuel with
  | 0 => none
  | fuel + 1 =>
    match skipLines? (cs.length + 1) cs with
    | none => none
    | some [] => some progress.root
    | some rest =>
      match readExpression? progress rest with
      | none => none
      | some (progress, rest) => (endOfLine? rest).bind (readExpressions? fuel progress)

/-- Reads a document; a byte order mark may stand before it. -/
def read? (text : String) : Option Json :=
  let cs := match text.toList with
    | '\ufeff' :: rest => rest
    | cs => cs
  (readExpressions? (cs.length + 1) ⟨[], []⟩ cs).map fun root => .obj (entriesToJson root)

end FunctionMeter.Toml
