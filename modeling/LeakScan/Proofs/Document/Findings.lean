import LeakScan.Extract
import Mathlib.Data.List.Basic

namespace LeakScan

theorem baseName_append_slash (a b : String) : baseName (a ++ "/" ++ b) = baseName b := by
  have hchars : (a ++ "/" ++ b).toList.reverse = b.toList.reverse ++ '/' :: a.toList.reverse := by
    simp [String.toList_append]
  have htail : ('/' :: a.toList.reverse).takeWhile (· != '/') = [] := rfl
  unfold baseName
  rw [hchars, List.takeWhile_append, htail, List.append_nil]
  split
  · next hlength => rw [(List.takeWhile_prefix _).eq_of_length hlength]
  · rfl

namespace Detector

variable {α β : Type} {ds : List Detector} {text : List Char} {make : Detector → Nat → α}

theorem mem_filterMap_lineIn? {a : α} :
    a ∈ (ds.filterMap fun s => (s.lineIn? text).map (make s)) ↔
      ∃ s ∈ ds, ∃ m, s.pattern.search text = some m ∧ a = make s (Text.lineOf text m.word) := by
  simp only [List.mem_filterMap, lineIn?, Option.map_map, Option.map_eq_some_iff,
    Function.comp_apply, @eq_comm _ _ a]

theorem map_filterMap_lineIn? (g : α → β) :
    (ds.filterMap fun s => (s.lineIn? text).map (make s)).map g =
      ds.filterMap fun s => (s.lineIn? text).map fun n => g (make s n) := by
  rw [List.map_filterMap]
  simp only [Option.map_map, Function.comp_def]

end Detector

namespace Document

variable {d d' : Document} {catalog : Catalog} {f : Finding}

theorem keys_findings : (d.findings catalog).filterMap Finding.key? = d.keyFindings catalog := by
  simp [findings, List.filterMap_map, Function.comp_def, Finding.key?]

theorem sensitive_findings :
    (d.findings catalog).filterMap Finding.sensitive? = d.fileFindings catalog := by
  simp [findings, List.filterMap_map, Function.comp_def, Finding.sensitive?]

theorem code_findings : (d.findings catalog).filterMap Finding.code? = d.codeFindings catalog := by
  simp [findings, List.filterMap_map, Function.comp_def, Finding.code?]

theorem keyFindings_congr (hpath : d.path = d'.path) (htext : d.text = d'.text)
    (horigin : d.origin = d'.origin) : d.keyFindings catalog = d'.keyFindings catalog := by
  have hfinding : d.keyFinding = d'.keyFinding := by
    funext s line
    simp [keyFinding, hpath, horigin]
  unfold keyFindings
  rw [htext, hfinding]

theorem fileFindings_congr (hpath : d.path = d'.path) (htext : d.text = d'.text)
    (horigin : d.origin = d'.origin) : d.fileFindings catalog = d'.fileFindings catalog := by
  unfold fileFindings
  rw [hpath, htext, horigin]

theorem fileFindings_of_file (hpath : d.path = d'.path) (hd : d.origin = .file)
    (hd' : d'.origin = .file) : d.fileFindings catalog = d'.fileFindings catalog := by
  unfold fileFindings
  rw [hpath, hd, hd']

theorem codeFindings_congr (hpath : d.path = d'.path) (htext : d.text.isSome = d'.text.isSome)
    (hcode : d.codeText = d'.codeText) : d.codeFindings catalog = d'.codeFindings catalog := by
  have hfinding : d.codeFinding = d'.codeFinding := by
    funext s line
    simp [codeFinding, hpath]
  unfold codeFindings
  rw [hcode, hfinding]
  cases h : d.text with
  | none =>
    have h' : d'.text = none := by simpa [h] using htext
    rw [h']
  | some text =>
    obtain ⟨text', h'⟩ := Option.isSome_iff_exists.1 (htext.symm.trans (by rw [h]; rfl))
    rw [h']
    cases d'.codeText <;> rfl

theorem file_of_keyFindings {k : KeyFinding} (hk : k ∈ d.keyFindings catalog) :
    k.file = d.path := by
  unfold keyFindings at hk
  split at hk
  · simp at hk
  · obtain ⟨s, -, m, -, rfl⟩ := Detector.mem_filterMap_lineIn?.1 hk
    rfl

theorem file_of_codeFindings {c : CodeFinding} (hc : c ∈ d.codeFindings catalog) :
    c.file = d.path := by
  unfold codeFindings at hc
  split at hc
  · split at hc
    · simp at hc
    · obtain ⟨s, -, m, -, rfl⟩ := Detector.mem_filterMap_lineIn?.1 hc
      rfl
  · simp at hc

theorem place_of_fileFindings {s : FileFinding} (hs : s ∈ d.fileFindings catalog) :
    s.file = d.path ∧ s.line = none := by
  unfold fileFindings at hs
  split at hs
  · split at hs
    · simp at hs
    · split at hs
      · simp at hs
      · obtain ⟨name, -, hname⟩ := List.mem_filterMap.1 hs
        split at hname
        · rw [← Option.some.inj hname]
          exact ⟨rfl, rfl⟩
        · simp at hname
  · split at hs
    · rw [List.mem_singleton.1 hs]
      exact ⟨rfl, rfl⟩
    · simp at hs

theorem file_of_fileFindings {s : FileFinding} (hs : s ∈ d.fileFindings catalog) :
    s.file = d.path :=
  (place_of_fileFindings hs).1

theorem file_of_findings (h : f ∈ d.findings catalog) : f.file = d.path := by
  simp only [findings, List.mem_append, List.mem_map] at h
  rcases h with (⟨k, hk, rfl⟩ | ⟨c, hc, rfl⟩) | ⟨s, hs, rfl⟩
  · exact file_of_keyFindings hk
  · exact file_of_codeFindings hc
  · exact file_of_fileFindings hs

end Document

end LeakScan
