import LeakScan.Proofs.Page.Joined
import LeakScan.Proofs.Pattern.Languages

namespace LeakScan

namespace Detector

open Pattern

variable {before blanks w : List Char}

theorem debugMode_mem_languages : (debugMode, DebugSetting) ∈ languages := by
  simp [languages]

theorem debugSetting_colon (hblanks : ∀ c ∈ blanks, Text.isBlank c = true) :
    DebugSetting ("debug:".toList ++ blanks ++ "true".toList) :=
  ⟨"debug".toList, [], ':', blanks, "true".toList, rfl, by decide, by decide, by simp, hblanks,
    .inl ⟨rfl, rfl⟩⟩

theorem DebugSetting.head (h : DebugSetting w) : ∃ c r, w = c :: r ∧ Text.foldCase c = 'd' := by
  obtain ⟨name, before, mark, after, value, rfl, hname, -⟩ := h
  obtain ⟨c, r, rfl, hc, -⟩ := List.map_eq_cons_iff.1 hname
  exact ⟨c, _, rfl, hc⟩

theorem search_debugMode (hbefore : ∀ c ∈ before, Text.foldCase c ≠ 'd')
    (hblanks : ∀ c ∈ blanks, Text.isBlank c = true) :
    debugMode.pattern.search (before ++ ("debug:".toList ++ blanks ++ "true".toList)) =
      some ⟨before.length, "debug:".toList ++ blanks ++ "true".toList⟩ := by
  have hsetting := debugSetting_colon hblanks
  generalize "debug:".toList ++ blanks ++ "true".toList = w at hsetting
  obtain ⟨hnone, htold⟩ := search_told (matches_iff debugMode_mem_languages)
    (prefixFree_of_languages debugMode_mem_languages) (before ++ w)
  cases hsearch : debugMode.pattern.search (before ++ w) with
  | none => exact absurd (List.suffix_append before w).isInfix (hnone.1 hsearch w hsetting)
  | some m =>
    obtain ⟨hstop, -, hword, hfirst, honly⟩ := htold m hsearch
    have hlow : ¬ m.start < before.length := by
      intro hstart
      obtain ⟨c, r, hcr, hc⟩ := hword.head
      obtain ⟨-, -, hhere⟩ := search_some hsearch
      rw [hcr, List.drop_append_of_le_length (Nat.le_of_lt hstart), List.drop_eq_getElem_cons hstart,
        List.cons_append, List.cons_prefix_cons] at hhere
      exact hbefore before[m.start] (List.getElem_mem hstart) (hhere.1 ▸ hc)
    have hhigh : ¬ before.length < m.start := by
      intro hstart
      apply hfirst before.length hstart w hsetting
      rw [List.drop_left]
    have hstart : m.start = before.length := by omega
    have hwhole : w = m.word := by
      apply honly w hsetting
      rw [hstart, List.drop_left]
    rw [hwhole, ← hstart]

end Detector

namespace Document

/-- A finding of risky code tells the line on which the leftmost match begins if the match holds no
line feed, and the first line if it does. For all detectors but the debug mode no match holds one, so
that something is found exactly if some line alone holds a word of the pattern, and the line told is
the first such line; in the debug mode, any run of blanks may stand in the match. -/
theorem code_line_exact (d : Document) (text code : String) (htext : d.text = some text)
    (hcode : d.codeText = some code) (catalog : Catalog)
    (hbuilt : ∀ t ∈ catalog.codes, t ∈ Detector.secrets ++ Detector.codes) (s : Detector)
    (hs : s ∈ catalog.codes) (hkind : s ∈ Detector.codes) :
    ((∃ f, .code f ∈ d.findings catalog ∧ f.detector = s.name) ↔ s.pattern.Occurs code.toList) ∧
    (∀ f, .code f ∈ d.findings catalog → f.detector = s.name →
      ∃ m, s.pattern.search code.toList = some m ∧ s.pattern.Leftmost code.toList m.start ∧
        ('\n' ∉ m.word → f.line = some (((code.toList.take m.start).count '\n' : Int) + 1)) ∧
        ('\n' ∈ m.word → f.line = some 1)) ∧
    (s.name ≠ Detector.debugMode.name →
      (∀ m, s.pattern.search code.toList = some m → '\n' ∉ m.word) ∧
      ((∃ f, .code f ∈ d.findings catalog ∧ f.detector = s.name) ↔
        ∃ l ∈ Text.lines code.toList, s.pattern.Occurs l) ∧
      ∀ f, .code f ∈ d.findings catalog → f.detector = s.name →
        ∃ i : Nat, f.line = some ((i : Int) + 1) ∧
          Text.FirstAt s.pattern.Occurs (Text.lines code.toList) i) ∧
    ∀ before blanks : List Char, (∀ c ∈ before, Text.foldCase c ≠ 'd') →
      (∀ c ∈ blanks, Text.isBlank c = true) →
      Detector.debugMode.pattern.search (before ++ ("debug:".toList ++ blanks ++ "true".toList)) =
        some ⟨before.length, "debug:".toList ++ blanks ++ "true".toList⟩ := by
  have hexists := exists_code_finding htext hcode hbuilt hs hkind
  have hmatch : ∀ f, .code f ∈ d.findings catalog → f.detector = s.name →
      ∃ m, s.pattern.search code.toList = some m ∧
        f.line = some (Text.lineOf code.toList m.word : Int) := by
    intro f hf hname
    obtain ⟨-, t, ht, m, hm, rfl⟩ := (mem_codeFindings htext hcode).1 (code_mem_findings.1 hf)
    obtain rfl := Detector.eq_of_name_eq (hbuilt t ht) (hbuilt s hs) hname
    exact ⟨m, hm, rfl⟩
  refine ⟨hexists, ?_, ?_, fun before blanks => Detector.search_debugMode⟩
  · intro f hf hname
    obtain ⟨m, hm, hline⟩ := hmatch f hf hname
    refine ⟨m, hm, (Pattern.search_some hm).1, fun hword => ?_, fun hword => ?_⟩
    · rw [hline, Pattern.lineOf_word hword hm]
      rfl
    · rw [hline, Text.lineOf_of_feed hword]
      rfl
  · intro hname
    have hp := Detector.codes_avoid_feed hkind hname
    refine ⟨fun m hm => ?_, ?_, ?_⟩
    · exact Pattern.not_mem_of_avoids hp (Pattern.search_some hm).2.1
    · rw [hexists, Pattern.occurs_iff_line hp]
    · intro f hf hf'
      obtain ⟨m, hm, hline⟩ := hmatch f hf hf'
      refine ⟨(code.toList.take m.start).count '\n', ?_, ?_⟩
      · rw [hline, Pattern.lineOf_match hp hm]
        rfl
      · exact Pattern.firstAt_of_leftmost hp (Pattern.search_some hm).1

def brokenSetting : String := "let x\ndebug:\ntrue\nlet Key"

theorem code_line_exact_broken :
    ∃ f g, .code f ∈ Document.findings { path := "a.js", text := some brokenSetting } (.build true) ∧
      .code g ∈ Document.findings { path := "a.js", text := some brokenSetting } (.build true) ∧
      f.detector = "Debug Mode" ∧ f.line = some 1 ∧
      g.detector = "Hardcoded Credentials" ∧ g.line = some 4 := by
  have htold (s : Detector) (hs : s ∈ Detector.codes) :=
    code_line_exact { path := "a.js", text := some brokenSetting } brokenSetting brokenSetting rfl
      rfl (.build true) (fun t ht => List.mem_append_right _ ht) s hs hs
  have hdebug := htold Detector.debugMode (by simp [Detector.codes])
  have hkey := htold Detector.hardcodedCredentials (by simp [Detector.codes])
  obtain ⟨f, hf, hfname⟩ := hdebug.1.2 (Pattern.isSome_search.1 (by decide))
  obtain ⟨g, hg, hgname⟩ := hkey.1.2 (Pattern.isSome_search.1 (by decide))
  refine ⟨f, g, hf, hg, hfname, ?_, hgname, ?_⟩
  · obtain ⟨m, hm, -, -, hfeed⟩ := hdebug.2.1 f hf hfname
    have hword : Detector.debugMode.pattern.search brokenSetting.toList =
        some ⟨6, "debug:\ntrue".toList⟩ := by decide
    obtain rfl := Option.some.inj (hm.symm.trans hword)
    exact hfeed (by decide)
  · obtain ⟨m, hm, -, hnone, -⟩ := hkey.2.1 g hg hgname
    have hword : Detector.hardcodedCredentials.pattern.search brokenSetting.toList =
        some ⟨22, "Key".toList⟩ := by decide
    obtain rfl := Option.some.inj (hm.symm.trans hword)
    exact hnone (by decide)

end Document

end LeakScan
