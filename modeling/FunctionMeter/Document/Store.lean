import FunctionMeter.Document.Basic

/-!
# The open documents

At most one document is open under each name. Opening a name again replaces its document, changing
or closing a name that is not open does nothing.
-/

namespace FunctionMeter

/-- The open documents, in the order in which their names were first opened. -/
structure Store where
  documents : List Document := []
  deriving Repr, Inhabited

namespace Store

def empty : Store := ⟨[]⟩

def get? (store : Store) (uri : Uri) : Option Document :=
  store.documents.find? (·.uri = uri)

/-- Puts a document in the place of the one with its name, or at the end. -/
def put (document : Document) : List Document → List Document
  | [] => [document]
  | d :: rest => if d.uri = document.uri then document :: rest else d :: put document rest

def insert (store : Store) (document : Document) : Store := ⟨put document store.documents⟩

/-- Changes an open document; gives the new document and the store that holds it. -/
def change? (store : Store) (uri : Uri) (changes : List Change) (version : Int32) :
    Option (Document × Store) :=
  (store.get? uri).map fun d =>
    let updated := d.apply changes version
    (updated, store.insert updated)

def erase (store : Store) (uri : Uri) : Store :=
  ⟨store.documents.filter (·.uri ≠ uri)⟩

def size (store : Store) : Nat := store.documents.length

def isEmpty (store : Store) : Bool := store.documents.isEmpty

end Store

end FunctionMeter
