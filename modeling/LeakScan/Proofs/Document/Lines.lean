import LeakScan.Proofs.Document.Findings
import LeakScan.Proofs.Pattern.Leftmost
import LeakScan.Proofs.Text.FirstPlace
import Mathlib.Data.List.Nodup

namespace LeakScan

namespace Pattern

variable {p : Pattern} {s : List Char}

theorem firstAt_of_leftmost {i : Nat} (hp : p.avoids '\n' = true) (h : p.Leftmost s i) :
    Text.FirstAt p.Occurs (Text.lines s) ((s.take i).count '\n') := by
  obtain ⟨⟨hi, hhere⟩, hearlier⟩ := h
  exact Text.firstAt_lines (fun w hw => not_mem_of_avoids hp hw) hi hhere
    fun j hj hw => hearlier j hj ⟨by omega, hw⟩

theorem lineOf_word {m : Match} (hw : '\n' ∉ m.word) (h : p.search s = some m) :
    Text.lineOf s m.word = (s.take m.start).count '\n' + 1 := by
  obtain ⟨⟨⟨hi, -⟩, hearlier⟩, hm, hhere⟩ := search_some h
  have hplace : Text.FirstPlace m.word s m.start :=
    ⟨hi, hhere, fun j hj hw => hearlier j hj ⟨by omega, m.word, hm, hw⟩⟩
  exact hplace.lineOf_eq hw

theorem lineOf_match {m : Match} (hp : p.avoids '\n' = true) (h : p.search s = some m) :
    Text.lineOf s m.word = (s.take m.start).count '\n' + 1 :=
  lineOf_word (not_mem_of_avoids hp (search_some h).2.1) h

theorem occurs_iff_line (hp : p.avoids '\n' = true) :
    p.Occurs s ↔ ∃ l ∈ Text.lines s, p.Occurs l := by
  constructor
  · rintro ⟨w, hw, hi⟩
    obtain ⟨l, hl, hwl⟩ := (Text.infix_iff_line (not_mem_of_avoids hp hw)).1 hi
    exact ⟨l, hl, w, hw, hwl⟩
  · rintro ⟨l, hl, w, hw, hi⟩
    exact ⟨w, hw, hi.trans (Text.infix_of_mem_lines hl)⟩

end Pattern

namespace Detector

theorem secrets_avoid_feed {s : Detector} (hs : s ∈ secrets) : s.pattern.avoids '\n' = true := by
  have h : (secrets.all fun d => d.pattern.avoids '\n') = true := by decide
  exact List.all_eq_true.1 h s hs

theorem eq_of_name_eq {s t : Detector} (hs : s ∈ secrets ++ codes) (ht : t ∈ secrets ++ codes)
    (h : s.name = t.name) : s = t := by
  have hnames : ((secrets ++ codes).map (·.name)).Nodup := by decide
  exact List.inj_on_of_nodup_map hnames hs ht h

end Detector

namespace Document

variable {d : Document} {catalog : Catalog}

theorem key_mem_findings {f : KeyFinding} :
    .key f ∈ d.findings catalog ↔ f ∈ d.keyFindings catalog := by
  simp [findings]

theorem mem_keyFindings {text : String} (htext : d.text = some text) {f : KeyFinding} :
    f ∈ d.keyFindings catalog ↔ ∃ s ∈ catalog.secrets, ∃ m, s.pattern.search text.toList = some m ∧
      f = d.keyFinding s (Text.lineOf text.toList m.word) := by
  simp only [keyFindings, htext]
  exact Detector.mem_filterMap_lineIn?

/-- A key finding is given for a built-in secret detector exactly if some line alone holds a word of
its pattern. It names the first such line, on which the leftmost word of the whole text begins. -/
theorem key_line_exact (d : Document) (text : String) (htext : d.text = some text)
    (catalog : Catalog) (hbuilt : ∀ t ∈ catalog.secrets, t ∈ Detector.secrets ++ Detector.codes)
    (s : Detector) (hs : s ∈ catalog.secrets) (hsecret : s ∈ Detector.secrets) :
    ((∃ f, .key f ∈ d.findings catalog ∧ f.service = s.name) ↔
      ∃ l ∈ Text.lines text.toList, s.pattern.Occurs l) ∧
    ∀ f, .key f ∈ d.findings catalog → f.service = s.name →
      ∃ (i start : Nat), f.line = some ((i : Int) + 1) ∧
        Text.FirstAt s.pattern.Occurs (Text.lines text.toList) i ∧
        (s.pattern.search text.toList).map Pattern.Match.start = some start ∧
        s.pattern.Leftmost text.toList start ∧
        i = (text.toList.take start).count '\n' := by
  have hp := Detector.secrets_avoid_feed hsecret
  refine ⟨?_, ?_⟩
  · rw [← Pattern.occurs_iff_line hp, ← Pattern.isSome_search, Option.isSome_iff_exists]
    constructor
    · rintro ⟨f, hf, hname⟩
      obtain ⟨t, ht, m, hm, rfl⟩ := (mem_keyFindings htext).1 (key_mem_findings.1 hf)
      obtain rfl := Detector.eq_of_name_eq (hbuilt t ht) (hbuilt s hs) hname
      exact ⟨m, hm⟩
    · rintro ⟨m, hm⟩
      exact ⟨_, key_mem_findings.2 ((mem_keyFindings htext).2 ⟨s, hs, m, hm, rfl⟩), rfl⟩
  · intro f hf hname
    obtain ⟨t, ht, m, hm, rfl⟩ := (mem_keyFindings htext).1 (key_mem_findings.1 hf)
    obtain rfl := Detector.eq_of_name_eq (hbuilt t ht) (hbuilt s hs) hname
    have hleft := (Pattern.search_some hm).1
    refine ⟨_, m.start, ?_, Pattern.firstAt_of_leftmost hp hleft, by rw [hm]; rfl, hleft, rfl⟩
    rw [Pattern.lineOf_match hp hm]
    rfl

def stubAndKey : String := "sk-\nsk-abcdefghabcdefghabcdefghabcdefghabcdefghabcdefgh"

theorem key_line_exact_below_stub :
    ∃ f, .key f ∈ Document.findings { path := "a.env", text := some stubAndKey } (.build true) ∧
      f.service = "OpenAI" ∧ f.line = some 2 := by
  have h := key_line_exact { path := "a.env", text := some stubAndKey } stubAndKey rfl (.build true)
    (fun t ht => List.mem_append_left _ (List.mem_filter.1 ht).1)
    Detector.openAI (List.mem_filter.2 ⟨List.mem_cons_self, rfl⟩) List.mem_cons_self
  have hline : ∃ l ∈ Text.lines stubAndKey.toList, Detector.openAI.pattern.Occurs l :=
    ⟨stubAndKey.toList.drop 4, by decide, Pattern.isSome_search.1 (by decide)⟩
  obtain ⟨f, hf, hname⟩ := h.1.2 hline
  obtain ⟨i, start, hfound, -, hstart, -, hi⟩ := h.2 f hf hname
  have hfour : (Detector.openAI.pattern.search stubAndKey.toList).map Pattern.Match.start =
      some 4 := by decide
  obtain rfl := Option.some.inj (hfour.symm.trans hstart)
  refine ⟨f, hf, hname, ?_⟩
  rw [hfound, hi]
  decide

end Document

end LeakScan
