import LeakScan.Config.Load
import LeakScan.Config.Template
import LeakScan.Proofs.Config.Skips
import LeakScan.Proofs.Text.Utf8
import LeakScan.Scan.Walk
import Mathlib.Data.List.Basic

namespace LeakScan

namespace Config

theorem toList_template :
    template.toList = templateLines.flatMap fun line => line.toList ++ ['\n'] := by
  simp [template, List.flatMap_map, String.toList_append]

theorem return_not_mem_template : '\r' ∉ template.toList := by
  have hnone : '\r' ∉ templateLines.flatMap fun line => line.toList ++ ['\n'] := by decide +kernel
  rwa [toList_template]

theorem textOfBytes_template : textOfBytes (Text.encodeUtf8 template.toList) = .ok template := by
  have hdecode : Text.decodeUtf8 (Text.encodeUtf8 template.toList) = .ok template.toList :=
    Text.decodeUtf8_eq_ok_iff.2 rfl
  have huniform : Text.uniformLineEnds template.toList = template.toList :=
    Text.uniformLineEnds_eq_self return_not_mem_template
  rw [textOfBytes, hdecode, Except.map, huniform, String.ofList_toList]

theorem ofBytes_template : ∃ config, ofBytes (Text.encodeUtf8 template.toList) = .ok config ∧
    config.skips = .ok .default ∧ config.mode = .broad := by
  have hread : (ofBytes (Text.encodeUtf8 template.toList)).toOption.map
      (fun c => (c.skips.toOption, c.mode)) = some (some .default, .broad) := by
    rw [toList_template]
    decide +kernel
  cases hbytes : ofBytes (Text.encodeUtf8 template.toList) with
  | error f =>
    rw [hbytes] at hread
    cases hread
  | ok config =>
    rw [hbytes] at hread
    obtain ⟨hskips, hmode⟩ := Prod.mk.inj (Option.some.inj hread)
    refine ⟨config, rfl, ?_, hmode⟩
    cases h : config.skips with
    | error f =>
      rw [h] at hskips
      cases hskips
    | ok skips =>
      rw [h] at hskips
      rw [Option.some.inj hskips]

end Config

end LeakScan
