import FunctionMeter.Metric
import FunctionMeter.Proofs.Loc
import FunctionMeter.Proofs.Symbol.Address
import Mathlib

/-!
# One metric for each signature

The metrics of a forest are a summary of its function-like symbols, wherever they stand. There is
exactly one metric for each signature among them. Its place in the list is decided by the first
symbol with that signature in document order and its contents by the last one.

The proof follows the table while it is filled. `Summary` says what the entries of a table know of
the symbols met so far; meeting one more symbol either renews the entry of its signature in place or
adds an entry behind all others, and both keep the summary.
-/

namespace FunctionMeter

namespace Symbol

/-- A function-like symbol stands at an address of a forest. -/
def FunctionAt (forest : List Symbol) (address : List Nat) (s : Symbol) : Prop :=
  at? forest address = some s ∧ s.isFunctionLike

/-- The function-like symbols of a forest in document order with their addresses. -/
def functions (forest : List Symbol) : List (List Nat × Symbol) :=
  (addressed 0 forest).filter (·.2.isFunctionLike)

theorem mem_functions {forest : List Symbol} {address : List Nat} {s : Symbol} :
    (address, s) ∈ functions forest ↔ FunctionAt forest address s := by
  rw [functions, List.mem_filter, mem_addressed_zero, FunctionAt]

theorem functions_sorted (forest : List Symbol) :
    (functions forest).Pairwise fun a b => a.1 < b.1 :=
  (addressed_sorted 0 forest).filter _

end Symbol

namespace Metric

/-- What a metric tells of a symbol. -/
structure Describes (lines : List String) (s : Symbol) (m : Metric) : Prop where
  name : m.name = s.name
  range : m.range = s.fullRange
  position : m.signaturePosition = s.signatureRange.stop
  loc : m.loc.toNat = s.countLoc lines

theorem describes_ofSymbol (lines : List String) (s : Symbol) :
    Describes lines s (ofSymbol lines s) :=
  ⟨rfl, rfl, rfl, s.toNat_loc lines⟩

/-! ## Filling the table -/

theorem put_of_absent {key : Range} {table : List (Range × Metric)} (metric : Metric)
    (absent : key ∉ table.map Prod.fst) : put key metric table = table ++ [(key, metric)] := by
  induction table with
  | nil => rfl
  | cons row table ih =>
      rw [List.map_cons, List.mem_cons, not_or] at absent
      rw [put, if_neg (Ne.symm absent.1), ih absent.2, List.cons_append]

theorem put_of_present {key : Range} {before : List (Range × Metric)} (old metric : Metric)
    (after : List (Range × Metric)) (absent : key ∉ before.map Prod.fst) :
    put key metric (before ++ (key, old) :: after) = before ++ (key, metric) :: after := by
  induction before with
  | nil => rw [List.nil_append, put, if_pos rfl, List.nil_append]
  | cons row before ih =>
      rw [List.map_cons, List.mem_cons, not_or] at absent
      rw [List.cons_append, put, if_neg (Ne.symm absent.1), ih absent.2, List.cons_append]

theorem mem_put {key : Range} {metric : Metric} {table : List (Range × Metric)}
    {row : Range × Metric} (member : row ∈ put key metric table) :
    row ∈ table ∨ row.2 = metric := by
  induction table with
  | nil =>
      rw [put, List.mem_singleton] at member
      exact .inr (congrArg Prod.snd member)
  | cons first table ih =>
      rw [put] at member
      split at member
      · rcases List.mem_cons.mp member with rfl | later
        · exact .inr rfl
        · exact .inl (List.mem_cons_of_mem _ later)
      · rcases List.mem_cons.mp member with rfl | later
        · exact .inl List.mem_cons_self
        · exact (ih later).imp_left (List.mem_cons_of_mem _)

/-- The occurrences of one signature: the address of the first, the address of the last and the
symbol that stands there. -/
structure Entry where
  first : List Nat
  last : List Nat
  symbol : Symbol

namespace Entry

def signature (e : Entry) : Range := e.symbol.signatureRange

def row (lines : List String) (e : Entry) : Range × Metric :=
  (e.signature, ofSymbol lines e.symbol)

/-- An entry is right about where its signature occurs. -/
structure Covers (e : Entry) (occurs : List Nat → Symbol → Prop) : Prop where
  first : ∃ s, occurs e.first s ∧ s.signatureRange = e.signature
  least : ∀ address s, occurs address s → s.signatureRange = e.signature → e.first ≤ address
  last : occurs e.last e.symbol
  greatest : ∀ address s, occurs address s → s.signatureRange = e.signature → address ≤ e.last

end Entry

/-- The entries tell everything about where signatures occur: there is exactly one for each, and
they stand in the order in which their signatures first occur. -/
structure Summary (occurs : List Nat → Symbol → Prop) (entries : List Entry) : Prop where
  covers : ∀ e ∈ entries, e.Covers occurs
  complete : ∀ address s, occurs address s → s.signatureRange ∈ entries.map (·.signature)
  distinct : (entries.map (·.signature)).Nodup
  ordered : entries.Pairwise fun e f => e.first < f.first

namespace Summary

variable {occurs : List Nat → Symbol → Prop} {entries : List Entry}

/-- The occurrences that are known when one more is met. -/
def met (occurs : List Nat → Symbol → Prop) (address : List Nat) (s : Symbol) :
    List Nat → Symbol → Prop :=
  fun a t => occurs a t ∨ (a = address ∧ t = s)

/-- A symbol with another signature does not concern an entry. -/
theorem covers_met_of_ne {e : Entry} {address : List Nat} {s : Symbol} (h : e.Covers occurs)
    (other : s.signatureRange ≠ e.signature) : e.Covers (met occurs address s) := by
  obtain ⟨t, found, same⟩ := h.first
  refine ⟨⟨t, .inl found, same⟩, ?_, .inl h.last, ?_⟩
  · rintro a u (seen | ⟨-, rfl⟩) sameSignature
    · exact h.least a u seen sameSignature
    · exact absurd sameSignature other
  · rintro a u (seen | ⟨-, rfl⟩) sameSignature
    · exact h.greatest a u seen sameSignature
    · exact absurd sameSignature other

/-- Met behind all others, a symbol takes over the entry of its signature. -/
theorem covers_met_renew {e : Entry} {address : List Nat} {s : Symbol} (h : e.Covers occurs)
    (behind : ∀ a t, occurs a t → a < address) (same : s.signatureRange = e.signature) :
    Entry.Covers ⟨e.first, address, s⟩ (met occurs address s) := by
  obtain ⟨t, found, sameFirst⟩ := h.first
  refine ⟨⟨t, .inl found, sameFirst.trans same.symm⟩, ?_, .inr ⟨rfl, rfl⟩, ?_⟩
  · rintro a u (seen | ⟨rfl, -⟩) sameSignature
    · exact h.least a u seen (sameSignature.trans same)
    · exact (behind e.first t found).le
  · rintro a u (seen | ⟨rfl, -⟩) -
    · exact (behind a u seen).le
    · exact le_refl _

/-- A symbol with a new signature has an entry of its own. -/
theorem covers_met_new {address : List Nat} {s : Symbol}
    (new : ∀ a t, occurs a t → t.signatureRange ≠ s.signatureRange) :
    Entry.Covers ⟨address, address, s⟩ (met occurs address s) := by
  refine ⟨⟨s, .inr ⟨rfl, rfl⟩, rfl⟩, ?_, .inr ⟨rfl, rfl⟩, ?_⟩
  · rintro a u (seen | ⟨rfl, -⟩) same
    · exact absurd same (new a u seen)
    · exact le_refl _
  · rintro a u (seen | ⟨rfl, -⟩) same
    · exact absurd same (new a u seen)
    · exact le_refl _

/-- Meeting a symbol with a known signature renews one entry and moves none. -/
theorem renew {before after : List Entry} {e : Entry} {address : List Nat} {s : Symbol}
    (h : Summary occurs (before ++ e :: after)) (behind : ∀ a t, occurs a t → a < address)
    (same : s.signatureRange = e.signature) :
    Summary (met occurs address s) (before ++ ⟨e.first, address, s⟩ :: after) := by
  have signatures : (before ++ ⟨e.first, address, s⟩ :: after).map (·.signature) =
      (before ++ e :: after).map (·.signature) := by
    rw [List.map_append, List.map_append, List.map_cons, List.map_cons, ← same]
    rfl
  have apart : ∀ f ∈ before ++ after, s.signatureRange ≠ f.signature := by
    intro f member equal
    have distinct := h.distinct
    rw [List.map_append, List.map_cons, List.nodup_middle, ← List.map_append,
      List.nodup_cons] at distinct
    exact distinct.1 (List.mem_map.mpr ⟨f, member, equal.symm.trans same⟩)
  refine ⟨?_, ?_, ?_, ?_⟩
  · intro f member
    rcases List.mem_append.mp member with earlier | later
    · exact covers_met_of_ne (h.covers f (List.mem_append_left _ earlier))
        (apart f (List.mem_append_left _ earlier))
    · rcases List.mem_cons.mp later with rfl | later
      · exact covers_met_renew (h.covers e (by simp)) behind same
      · exact covers_met_of_ne (h.covers f (by simp [later]))
          (apart f (List.mem_append_right _ later))
  · rw [signatures]
    rintro a t (seen | ⟨-, rfl⟩)
    · exact h.complete a t seen
    · rw [same]
      exact List.mem_map_of_mem (by simp)
  · rw [signatures]
    exact h.distinct
  · have ordered := h.ordered
    rw [List.pairwise_append, List.pairwise_cons] at ordered ⊢
    obtain ⟨earlier, ⟨head, later⟩, across⟩ := ordered
    refine ⟨earlier, ⟨head, later⟩, ?_⟩
    intro f left g right
    rcases List.mem_cons.mp right with rfl | right
    · exact across f left e (List.mem_cons_self ..)
    · exact across f left g (List.mem_cons_of_mem _ right)

/-- Meeting a symbol with a new signature adds one entry behind all others. -/
theorem extend {address : List Nat} {s : Symbol} (h : Summary occurs entries)
    (behind : ∀ a t, occurs a t → a < address)
    (new : s.signatureRange ∉ entries.map (·.signature)) :
    Summary (met occurs address s) (entries ++ [⟨address, address, s⟩]) := by
  have signatures : (entries ++ [Entry.mk address address s]).map (·.signature) =
      entries.map (·.signature) ++ [s.signatureRange] := by
    rw [List.map_append]
    rfl
  have unseen : ∀ a t, occurs a t → t.signatureRange ≠ s.signatureRange := by
    intro a t seen same
    exact new (same ▸ h.complete a t seen)
  refine ⟨?_, ?_, ?_, ?_⟩
  · intro f member
    rcases List.mem_append.mp member with earlier | last
    · refine covers_met_of_ne (h.covers f earlier) fun same => new ?_
      exact List.mem_map.mpr ⟨f, earlier, same.symm⟩
    · rw [List.mem_singleton.mp last]
      exact covers_met_new unseen
  · rw [signatures]
    rintro a t (seen | ⟨-, rfl⟩)
    · exact List.mem_append_left _ (h.complete a t seen)
    · exact List.mem_append_right _ (List.mem_singleton_self _)
  · rw [signatures, List.nodup_append]
    refine ⟨h.distinct, List.nodup_singleton _, ?_⟩
    rintro a member b last rfl
    exact new (List.mem_singleton.mp last ▸ member)
  · rw [List.pairwise_append]
    refine ⟨h.ordered, List.pairwise_singleton _ _, ?_⟩
    intro e member f last
    obtain ⟨t, found, -⟩ := (h.covers e member).first
    rw [List.mem_singleton.mp last]
    exact behind e.first t found

end Summary

theorem map_fst_row (lines : List String) (entries : List Entry) :
    (entries.map (Entry.row lines)).map Prod.fst = entries.map (·.signature) := by
  rw [List.map_map]
  rfl

/-- One more symbol, met behind all others, keeps the table a summary. -/
theorem exists_summary_put (lines : List String) {occurs : List Nat → Symbol → Prop}
    {entries : List Entry} {address : List Nat} {s : Symbol} (h : Summary occurs entries)
    (behind : ∀ a t, occurs a t → a < address) :
    ∃ updated, Summary (Summary.met occurs address s) updated ∧
      put s.signatureRange (ofSymbol lines s) (entries.map (Entry.row lines)) =
        updated.map (Entry.row lines) := by
  by_cases known : s.signatureRange ∈ entries.map (·.signature)
  · obtain ⟨e, member, same⟩ := List.mem_map.mp known
    obtain ⟨before, after, rfl⟩ := List.append_of_mem member
    refine ⟨_, h.renew behind same.symm, ?_⟩
    have absent : s.signatureRange ∉ (before.map (Entry.row lines)).map Prod.fst := by
      have distinct := h.distinct
      rw [List.map_append, List.map_cons, List.nodup_middle, List.nodup_cons, same] at distinct
      rw [map_fst_row]
      exact fun earlier => distinct.1 (List.mem_append_left _ earlier)
    have rowEq : e.row lines = (s.signatureRange, ofSymbol lines e.symbol) := by
      rw [Entry.row, same]
    rw [List.map_append, List.map_cons, rowEq, put_of_present _ _ _ absent, List.map_append,
      List.map_cons]
    rfl
  · refine ⟨_, h.extend behind known, ?_⟩
    rw [put_of_absent _ (by rw [map_fst_row]; exact known), List.map_append]
    rfl

/-- A table filled from symbols in document order is a summary of them. -/
theorem exists_summary_foldl (lines : List String) (seen : List (List Nat × Symbol))
    (sorted : seen.Pairwise fun a b => a.1 < b.1) :
    ∃ entries, Summary (fun a s => (a, s) ∈ seen) entries ∧
      seen.foldl (fun table place => put place.2.signatureRange (ofSymbol lines place.2) table) [] =
        entries.map (Entry.row lines) := by
  induction seen using List.reverseRecOn with
  | nil => exact ⟨[], ⟨by simp, by simp, by simp, .nil⟩, rfl⟩
  | append_singleton seen place ih =>
      obtain ⟨earlier, -, across⟩ := List.pairwise_append.mp sorted
      obtain ⟨entries, summary, filled⟩ := ih earlier
      have behind : ∀ a t, (a, t) ∈ seen → a < place.1 :=
        fun a t member => across (a, t) member place (List.mem_singleton_self _)
      obtain ⟨updated, summary', put⟩ := exists_summary_put lines (s := place.2) summary behind
      refine ⟨updated, ?_, ?_⟩
      · have occurrences : Summary.met (fun a s => (a, s) ∈ seen) place.1 place.2 =
            fun a s => (a, s) ∈ seen ++ [place] := by
          funext a s
          rw [Summary.met, List.mem_append, List.mem_singleton, Prod.ext_iff]
        rw [← occurrences]
        exact summary'
      · rw [List.foldl_append, filled]
        exact put

/-- Only function-like symbols reach the table, each at its place in document order. -/
theorem of_mem_foldl_record {lines : List String} {P : Metric → Prop} {symbols : List Symbol}
    {table : List (Range × Metric)} (before : ∀ row ∈ table, P row.2)
    (each : ∀ s ∈ symbols, P (ofSymbol lines s)) :
    ∀ row ∈ symbols.foldl (record lines) table, P row.2 := by
  induction symbols generalizing table with
  | nil => exact before
  | cons s symbols ih =>
      obtain ⟨own, others⟩ := List.forall_mem_cons.mp each
      refine ih ?_ others
      intro row member
      rw [record] at member
      split at member
      · rcases mem_put member with old | new
        · exact before row old
        · rw [new]
          exact own
      · exact before row member

/-- What holds of the metric of every symbol holds of every metric. -/
theorem forall_ofSymbols {lines : List String} {P : Metric → Prop} {symbols : List Symbol}
    (each : ∀ s ∈ Symbol.preorderAll symbols, P (ofSymbol lines s)) :
    ∀ m ∈ ofSymbols lines symbols, P m := by
  intro m member
  obtain ⟨row, inside, rfl⟩ := List.mem_map.mp member
  exact of_mem_foldl_record nofun each row inside

theorem ofSymbols_eq_foldl (lines : List String) (forest : List Symbol) :
    ofSymbols lines forest =
      ((Symbol.functions forest).foldl
        (fun table place => put place.2.signatureRange (ofSymbol lines place.2) table) []).map
        Prod.snd := by
  rw [ofSymbols, ← Symbol.map_snd_addressed 0 forest, List.foldl_map, Symbol.functions,
    List.foldl_filter]
  rfl

/-- The metrics of a forest describe, one for each signature of a function-like symbol, the last
symbol with this signature, in the order in which the signatures first occur. -/
theorem ofSymbols_summary (lines : List String) (forest : List Symbol) :
    ∃ entries, Summary (Symbol.FunctionAt forest) entries ∧
      List.Forall₂ (Describes lines) (entries.map (·.symbol)) (ofSymbols lines forest) := by
  obtain ⟨entries, summary, filled⟩ :=
    exists_summary_foldl lines (Symbol.functions forest) (Symbol.functions_sorted forest)
  refine ⟨entries, ?_, ?_⟩
  · have occurrences : (fun a s => (a, s) ∈ Symbol.functions forest) =
        Symbol.FunctionAt forest := by
      funext a s
      exact propext Symbol.mem_functions
    rw [← occurrences]
    exact summary
  · rw [ofSymbols_eq_foldl, filled, List.map_map, List.forall₂_map_left_iff,
      List.forall₂_map_right_iff, List.forall₂_same]
    intro e _
    exact describes_ofSymbol lines e.symbol

end Metric

end FunctionMeter
