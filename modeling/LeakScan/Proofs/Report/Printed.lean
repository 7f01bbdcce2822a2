import LeakScan.Proofs.Json.Ascii
import LeakScan.Proofs.Json.RoundTrip
import LeakScan.Report.Sarif

namespace LeakScan

open Json (fits itemsFit membersFit exceeds)

variable {depth : Nat}

theorem itemsFit_map {α : Type} {f : α → Json} (h : ∀ a, fits {} depth (f a) = true)
    (as : List α) : itemsFit {} depth (as.map f) = true := by
  induction as with
  | nil => rfl
  | cons a as ih => rw [List.map_cons, itemsFit, h a, ih, Bool.and_self]

theorem fits_lineJson (line : Option Int) : fits {} depth (lineJson line) = true := by
  cases line <;> rfl

theorem KeyFinding.fits_toJson (f : KeyFinding) : fits {} depth f.toJson = true := by
  simp [toJson, fits, membersFit, fits_lineJson, exceeds]

theorem FileFinding.fits_toJson (f : FileFinding) : fits {} depth f.toJson = true := by
  simp [toJson, fits, membersFit, fits_lineJson, exceeds]

theorem CodeFinding.fits_toJson (f : CodeFinding) : fits {} depth f.toJson = true := by
  simp [toJson, fits, membersFit, fits_lineJson, exceeds]

theorem ReadFailure.fits_toJson (e : ReadFailure) : fits {} depth e.toJson = true := by
  simp [toJson, fits, membersFit, exceeds]

theorem Report.fits_summaryJson (r : Report) : fits {} depth r.summaryJson = true := by
  simp [summaryJson, Json.ofNat, fits, membersFit, exceeds]

theorem Report.fits_toJson (r : Report) : fits {} depth r.toJson = true := by
  simp [toJson, fits, membersFit, exceeds, itemsFit_map KeyFinding.fits_toJson,
    itemsFit_map FileFinding.fits_toJson, itemsFit_map CodeFinding.fits_toJson,
    itemsFit_map ReadFailure.fits_toJson, fits_summaryJson]

namespace Sarif

theorem fits_textJson (s : String) : fits {} depth (textJson s) = true := by
  simp [textJson, fits, membersFit, exceeds]

theorem Rule.fits_toJson (r : Rule) : fits {} depth r.toJson = true := by
  simp [toJson, fits, membersFit, exceeds, fits_textJson]

theorem Result.fits_toJson (r : Result) : fits {} depth r.toJson = true := by
  cases hline : r.startLine <;>
    simp [toJson, hline, Json.ofNat, fits, itemsFit, membersFit, exceeds, fits_textJson]

theorem Log.fits_toJson (l : Log) : fits {} depth l.toJson = true := by
  simp [toJson, Json.ofNat, fits, itemsFit, membersFit, exceeds, itemsFit_map Rule.fits_toJson,
    itemsFit_map Result.fits_toJson]

end Sarif

/-- The text of a value is ASCII, one byte for each character, and stands for this value. -/
structure Json.Lossless (v : Json) : Prop where
  ascii : ∀ c ∈ (render v).toList, c.toNat < 0x80
  bytes : Text.encodeUtf8 (render v).toList = (render v).toList.map fun c => c.toNat.toUInt8
  parsed : parse? (render v).toList = some v

theorem Json.lossless_of_fits {v : Json} (h : fits {} 0 v = true) : Lossless v where
  ascii := isAscii_render v
  bytes := (isAscii_render v).encodeUtf8_eq
  parsed := by
    have hread := parse?_render h (List.forall_mem_nil _)
    rwa [List.append_nil] at hread

theorem Report.lossless (r : Report) : Json.Lossless r.toJson := Json.lossless_of_fits r.fits_toJson

theorem Sarif.Log.lossless (l : Log) : Json.Lossless l.toJson := Json.lossless_of_fits l.fits_toJson

end LeakScan
