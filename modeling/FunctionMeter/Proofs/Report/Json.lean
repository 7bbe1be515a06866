import FunctionMeter.Proofs.Json.Decode
import FunctionMeter.Proofs.Json.Writer
import FunctionMeter.Report.Render
import Mathlib

/-!
# Reports as JSON

Every part of a report is decoded from its own encoding, whatever its names hold, and an encoding
nests only as deep as the record it encodes. The counts of a summary are words of 64 bits, as those of
any report that fits into memory are. A report is therefore read back from its text.
-/

namespace FunctionMeter

open Json (bind_of_some fields?_record fits_record fits_ofList list?_ofList)

@[simp] theorem Category.ofJson?_name (c : Category) : Category.ofJson? (.str c.name) = some c := by
  cases c <;> rfl

namespace FunctionReport

@[simp] theorem ofJson?_toJson (r : FunctionReport) : ofJson? r.toJson = some r := by
  rw [ofJson?, toJson, bind_of_some (fields?_record _ (by simp)),
    bind_of_some (by simp : _ = some r.name), bind_of_some (by simp : _ = some r.line),
    bind_of_some (by simp : _ = some r.endLine), bind_of_some (by simp : _ = some r.loc),
    bind_of_some (by simp : _ = some r.category)]

theorem fits_toJson (r : FunctionReport) : r.toJson.Fits 1 :=
  fits_record (by simp)

end FunctionReport

namespace FileReport

@[simp] theorem ofJson?_toJson (f : FileReport) : ofJson? f.toJson = some f := by
  obtain ⟨path, language, functions⟩ := f
  have shown := list?_ofList FunctionReport.ofJson?_toJson functions
  cases language with
  | none =>
      rw [ofJson?, toJson, bind_of_some (fields?_record _ (by simp)),
        bind_of_some (by simp : _ = some path), bind_of_some (by simp : _ = some none),
        bind_of_some (by simpa using shown : _ = some functions)]
  | some language =>
      rw [ofJson?, toJson, bind_of_some (fields?_record _ (by simp)),
        bind_of_some (by simp : _ = some path), bind_of_some (by simp : _ = some (some language)),
        bind_of_some (by simpa using shown : _ = some functions)]

theorem fits_toJson (f : FileReport) : f.toJson.Fits 3 := by
  have shown : Json.Fits (.ofList FunctionReport.toJson f.functions) 2 :=
    fits_ofList fun r _ => r.fits_toJson
  refine fits_record ?_
  cases f.language <;> simp [shown]

end FileReport

namespace Summary

@[simp] theorem ofJson?_toJson (s : Summary) : ofJson? s.toJson = some s := by
  rw [ofJson?, toJson, bind_of_some (fields?_record _ (by simp)),
    bind_of_some (by simp : _ = some s.low), bind_of_some (by simp : _ = some s.medium),
    bind_of_some (by simp : _ = some s.high), bind_of_some (by simp : _ = some s.total)]

/-- Every count is a word of 64 bits. -/
structure IsCounted (s : Summary) : Prop where
  low : s.low < 2 ^ 64
  medium : s.medium < 2 ^ 64
  high : s.high < 2 ^ 64
  total : s.total < 2 ^ 64

theorem fits_toJson {s : Summary} (counted : s.IsCounted) : s.toJson.Fits 1 := by
  have low : Json.Fits (.ofNat s.low) 0 := Json.fits_ofNat counted.low
  have medium : Json.Fits (.ofNat s.medium) 0 := Json.fits_ofNat counted.medium
  have high : Json.Fits (.ofNat s.high) 0 := Json.fits_ofNat counted.high
  have total : Json.Fits (.ofNat s.total) 0 := Json.fits_ofNat counted.total
  exact fits_record (by simp [low, medium, high, total])

end Summary

namespace Report

theorem ofJson?_toJson (r : Report) : ofJson? r.toJson = some r := by
  have files := list?_ofList FileReport.ofJson?_toJson r.files
  rw [ofJson?, toJson, bind_of_some (fields?_record _ (by simp)),
    bind_of_some (by simpa using files : _ = some r.files),
    bind_of_some (by simp : _ = some r.summary)]

theorem fits_toJson {r : Report} (counted : r.summary.IsCounted) : r.toJson.Fits 5 := by
  have files : Json.Fits (.ofList FileReport.toJson r.files) 4 :=
    fits_ofList fun f _ => f.fits_toJson
  have summary : r.summary.toJson.Fits 4 := (Summary.fits_toJson counted).mono (by decide)
  exact fits_record (by simp [files, summary])

/-- The text of a report is JSON, and it is read back as the report it was written for. -/
theorem read_render_json (coloured : Bool) (r : Report) (counted : r.summary.IsCounted) :
    Json.Spells r.toJson (r.render coloured .json).toList ∧
      (Json.read? Json.textDepth (r.render coloured .json) >>= Report.ofJson?) = some r := by
  have fits : r.toJson.Fits Json.textDepth := (fits_toJson counted).mono (by decide)
  constructor
  · rw [render, Json.pretty, String.toList_ofList]
    exact Json.spells_writePretty r.toJson 0 fits.writable
  · rw [render, bind_of_some (Json.read?_pretty fits), ofJson?_toJson]

/-- A file without a language, and a function whose name cannot be written without escapes. -/
def escaped : Report :=
  ⟨[⟨"src\\é.txt", none, [⟨"\"f\"\n\x01", 1, 3, 2, .low⟩]⟩, ⟨"a.rs", some "Rust", []⟩], ⟨1, 0, 0, 1⟩⟩

theorem read_render_json_escaped : escaped.summary.IsCounted ∧
    (Json.read? Json.textDepth (escaped.render false .json) >>= Report.ofJson?) = some escaped :=
  have counted : escaped.summary.IsCounted := ⟨by decide, by decide, by decide, by decide⟩
  ⟨counted, (read_render_json false escaped counted).2⟩

end Report

end FunctionMeter
