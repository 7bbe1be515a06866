import FunctionMeter.Document.Store
import Mathlib

/-!
# Looking documents up

What a store holds for a name after each operation: an operation on one name decides what is held
for this name and leaves all other names alone.
-/

namespace FunctionMeter.Store

variable {store : Store} {uri other : Uri} {d document : Document}

theorem uri_of_get? (found : store.get? uri = some d) : d.uri = uri := by
  simpa using List.find?_some found

theorem find?_put_self (document : Document) (documents : List Document) :
    (put document documents).find? (·.uri = document.uri) = some document := by
  induction documents with
  | nil => simp [put]
  | cons d documents ih =>
      rw [put]
      split
      · simp
      · rename_i different
        rw [List.find?_cons_of_neg (by simpa using different), ih]

theorem find?_put_of_ne (documents : List Document) (different : document.uri ≠ uri) :
    (put document documents).find? (·.uri = uri) = documents.find? (·.uri = uri) := by
  induction documents with
  | nil => simp [put, different]
  | cons d documents ih =>
      rw [put]
      split
      · rename_i same
        have away : d.uri ≠ uri := same ▸ different
        rw [List.find?_cons_of_neg (by simpa using different),
          List.find?_cons_of_neg (by simpa using away)]
      · rw [List.find?_cons, List.find?_cons, ih]

theorem get?_insert_self (store : Store) (document : Document) :
    (store.insert document).get? document.uri = some document :=
  find?_put_self document store.documents

theorem get?_insert_of_ne (store : Store) (different : document.uri ≠ uri) :
    (store.insert document).get? uri = store.get? uri :=
  find?_put_of_ne store.documents different

theorem get?_erase_self (store : Store) (uri : Uri) : (store.erase uri).get? uri = none := by
  rw [get?, erase, List.find?_eq_none]
  intro d member
  simpa using (List.mem_filter.mp member).2

theorem get?_erase_of_ne (store : Store) (different : other ≠ uri) :
    (store.erase uri).get? other = store.get? other := by
  rw [get?, erase, List.find?_filter, get?]
  congr 1
  funext d
  by_cases same : d.uri = other
  · simp [same, different]
  · simp [same]

/-- A change is made to a document that is open, and puts the changed document in its place. -/
theorem change?_eq_some {changes : List Change} {version : Int32} {updated : Document}
    {store' : Store} (changed : store.change? uri changes version = some (updated, store')) :
    ∃ d, store.get? uri = some d ∧ updated = d.apply changes version ∧ updated.uri = uri ∧
      store' = store.insert updated := by
  obtain ⟨d, found, same⟩ := Option.map_eq_some_iff.mp changed
  obtain ⟨rfl, rfl⟩ := Prod.mk.inj same
  have named : d.uri = uri := uri_of_get? found
  exact ⟨d, found, rfl, named, rfl⟩

end FunctionMeter.Store
