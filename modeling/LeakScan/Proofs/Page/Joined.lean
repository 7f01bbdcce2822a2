import LeakScan.Page.Fetch
import LeakScan.Proofs.Document.Lines

namespace LeakScan

open Page (joinScripts)

namespace Pattern

variable {p : Pattern} {s w : List Char} {ss : List (List Char)}

/-- A word of the pattern begins in a script and goes on behind the line feed that follows it. -/
def Straddles (p : Pattern) (ss : List (List Char)) : Prop :=
  ∃ before script after u v, ss = before ++ script :: after ∧ after ≠ [] ∧
    u <:+ script ∧ v <+: joinScripts after ∧ Matches p (u ++ '\n' :: v)

theorem joinScripts_cons (h : ss ≠ []) : joinScripts (s :: ss) = s ++ '\n' :: joinScripts ss := by
  cases ss with
  | nil => exact absurd rfl h
  | cons t ss => rfl

theorem infix_append_cons {c : Char} {t : List Char} :
    w <:+: s ++ c :: t ↔
      w <:+: s ∨ w <:+: t ∨ ∃ u v, w = u ++ c :: v ∧ u <:+ s ∧ v <+: t := by
  constructor
  · rintro ⟨a, b, heq⟩
    rw [List.append_assoc] at heq
    rcases List.append_eq_append_iff.1 heq with ⟨k, rfl, hk⟩ | ⟨k, rfl, hk⟩
    · -- The word begins in `s`; the character is behind it, or in it.
      rcases List.append_eq_append_iff.1 hk with ⟨m, rfl, -⟩ | ⟨m, rfl, hm⟩
      · exact .inl ⟨a, m, by simp⟩
      · cases m with
        | nil => exact .inl ⟨a, [], by simp⟩
        | cons d m =>
          obtain ⟨rfl, rfl⟩ := List.cons.inj hm
          exact .inr (.inr ⟨k, m, rfl, ⟨a, rfl⟩, ⟨b, rfl⟩⟩)
    · cases k with
      | nil =>
        cases w with
        | nil => exact .inl List.nil_infix
        | cons d w =>
          obtain ⟨rfl, rfl⟩ := List.cons.inj hk
          exact .inr (.inr ⟨[], w, rfl, List.nil_suffix, ⟨b, rfl⟩⟩)
      | cons d k =>
        obtain ⟨rfl, rfl⟩ := List.cons.inj hk
        exact .inr (.inl ⟨k, b, by simp⟩)
  · rintro (h | h | ⟨u, v, rfl, ⟨a, rfl⟩, ⟨b, rfl⟩⟩)
    · exact h.trans (List.infix_append' [] s _)
    · exact h.trans ⟨s ++ [c], [], by simp⟩
    · exact ⟨a, b, by simp⟩

theorem occurs_append_cons {c : Char} {t : List Char} :
    p.Occurs (s ++ c :: t) ↔
      p.Occurs s ∨ p.Occurs t ∨ ∃ u v, Matches p (u ++ c :: v) ∧ u <:+ s ∧ v <+: t := by
  simp only [Occurs, infix_append_cons]
  constructor
  · rintro ⟨w, hw, h | h | ⟨u, v, rfl, hu, hv⟩⟩
    · exact .inl ⟨w, hw, h⟩
    · exact .inr (.inl ⟨w, hw, h⟩)
    · exact .inr (.inr ⟨u, v, hw, hu, hv⟩)
  · rintro (⟨w, hw, h⟩ | ⟨w, hw, h⟩ | ⟨u, v, hw, hu, hv⟩)
    · exact ⟨w, hw, .inl h⟩
    · exact ⟨w, hw, .inr (.inl h)⟩
    · exact ⟨_, hw, .inr (.inr ⟨u, v, rfl, hu, hv⟩)⟩

theorem not_straddles_single : ¬ p.Straddles [s] := by
  rintro ⟨before, script, after, u, v, heq, hafter, -⟩
  rcases List.append_eq_singleton_iff.1 heq.symm with ⟨-, h⟩ | ⟨-, h⟩
  · exact hafter (List.cons.inj h).2
  · simp at h

theorem straddles_cons (h : ss ≠ []) :
    p.Straddles (s :: ss) ↔
      (∃ u v, Matches p (u ++ '\n' :: v) ∧ u <:+ s ∧ v <+: joinScripts ss) ∨ p.Straddles ss := by
  constructor
  · rintro ⟨before, script, after, u, v, heq, hafter, hu, hv, hw⟩
    cases before with
    | nil =>
      obtain ⟨rfl, rfl⟩ := List.cons.inj heq
      exact .inl ⟨u, v, hw, hu, hv⟩
    | cons t before =>
      obtain ⟨rfl, rfl⟩ := List.cons.inj heq
      exact .inr ⟨before, script, after, u, v, rfl, hafter, hu, hv, hw⟩
  · rintro (⟨u, v, hw, hu, hv⟩ | ⟨before, script, after, u, v, rfl, hafter, hu, hv, hw⟩)
    · exact ⟨[], s, ss, u, v, rfl, h, hu, hv, hw⟩
    · exact ⟨s :: before, script, after, u, v, rfl, hafter, hu, hv, hw⟩

theorem occurs_joinScripts (h : ss ≠ []) :
    p.Occurs (joinScripts ss) ↔ (∃ s ∈ ss, p.Occurs s) ∨ p.Straddles ss := by
  induction ss with
  | nil => exact absurd rfl h
  | cons s ss ih =>
    by_cases hss : ss = []
    · subst hss
      simp [joinScripts, not_straddles_single]
    · rw [joinScripts_cons hss, occurs_append_cons, ih hss, straddles_cons hss]
      simp only [List.mem_cons, exists_eq_or_imp]
      grind

theorem not_straddles (hp : p.avoids '\n' = true) : ¬ p.Straddles ss := by
  rintro ⟨-, -, -, u, v, -, -, -, -, hw⟩
  exact not_mem_of_avoids hp hw (by simp)

end Pattern

namespace Detector

theorem codes_avoid_feed {s : Detector} (hs : s ∈ codes) (hname : s.name ≠ debugMode.name) :
    s.pattern.avoids '\n' = true := by
  have h : (codes.all fun d => d.name == debugMode.name || d.pattern.avoids '\n') = true := by
    decide
  have hs := List.all_eq_true.1 h s hs
  simpa [hname] using hs

theorem not_occurs_nil {s : Detector} (hs : s ∈ secrets ++ codes) : ¬ s.pattern.Occurs [] := by
  have h : ((secrets ++ codes).all fun d => (d.pattern.search []).isNone) = true := by decide
  have hs := List.all_eq_true.1 h s hs
  rw [← Pattern.isSome_search]
  simpa using hs

theorem codes_need_text {s : Detector} (hs : s ∈ codes) : ¬ s.pattern.Occurs [] :=
  not_occurs_nil (List.mem_append_right _ hs)

end Detector

namespace Document

variable {d : Document} {catalog : Catalog}

theorem code_mem_findings {f : CodeFinding} :
    .code f ∈ d.findings catalog ↔ f ∈ d.codeFindings catalog := by
  simp [findings]

theorem mem_codeFindings {text code : String} (htext : d.text = some text)
    (hcode : d.codeText = some code) {f : CodeFinding} :
    f ∈ d.codeFindings catalog ↔ code ≠ "" ∧ ∃ s ∈ catalog.codes, ∃ m,
      s.pattern.search code.toList = some m ∧
      f = d.codeFinding s (Text.lineOf code.toList m.word) := by
  simp only [codeFindings, htext, hcode]
  split
  · next hempty => simp [String.isEmpty_iff.1 hempty]
  · next hempty =>
    have hne : code ≠ "" := fun h => hempty (by simp [h])
    rw [Detector.mem_filterMap_lineIn?, and_iff_right hne]

theorem exists_code_finding {text code : String} (htext : d.text = some text)
    (hcode : d.codeText = some code)
    (hbuilt : ∀ t ∈ catalog.codes, t ∈ Detector.secrets ++ Detector.codes) {s : Detector}
    (hs : s ∈ catalog.codes) (hkind : s ∈ Detector.codes) :
    (∃ f, .code f ∈ d.findings catalog ∧ f.detector = s.name) ↔ s.pattern.Occurs code.toList := by
  simp only [code_mem_findings, mem_codeFindings htext hcode]
  constructor
  · rintro ⟨f, ⟨-, t, ht, m, hm, rfl⟩, hname⟩
    obtain rfl := Detector.eq_of_name_eq (hbuilt t ht) (hbuilt s hs) hname
    exact Pattern.isSome_search.1 (Option.isSome_iff_exists.2 ⟨m, hm⟩)
  · intro hoccurs
    obtain ⟨m, hm⟩ := Option.isSome_iff_exists.1 (Pattern.isSome_search.2 hoccurs)
    refine ⟨_, ⟨?_, s, hs, m, hm, rfl⟩, rfl⟩
    rintro rfl
    exact Detector.codes_need_text hkind hoccurs

end Document

theorem Page.document_of_fetch {r : Page.Request} {reply : Page.Reply} {d : Document}
    (h : (Page.fetch r reply).result = .ok d) :
    ∃ status reason body ss, reply = .response status reason body ∧
      Page.scripts body.toList = .ok ss ∧ d = Page.document r.url body ss := by
  unfold Page.fetch at h
  rw [Noted.result_bind, Noted.result_note] at h
  cases reply with
  | raised t => simp [Except.bind, Noted.fail] at h
  | response status reason body =>
    simp only [Except.bind] at h
    split at h
    · simp [Noted.fail] at h
    · unfold Page.read at h
      split at h
      · simp [Noted.fail] at h
      · next ss hss => exact ⟨status, reason, body, ss, rfl, hss, (Except.ok.inj h).symm⟩

/-- Joined scripts are searched as one text: a built-in code detector finds something exactly if it
finds something in one of the scripts, or if a word of its pattern lies across the end of one. Only
the debug mode has such words; for the other detectors the scripts can be taken one by one. Every
fetched page is a document of this kind. -/
theorem joined_scripts_findings (catalog : Catalog)
    (hbuilt : ∀ t ∈ catalog.codes, t ∈ Detector.secrets ++ Detector.codes) (s : Detector)
    (hs : s ∈ catalog.codes) (hkind : s ∈ Detector.codes) :
    (∀ (url body : String) (ss : List (List Char)),
      ((∃ f, .code f ∈ (Page.document url body ss).findings catalog ∧ f.detector = s.name) ↔
        (∃ t ∈ ss, s.pattern.Occurs t) ∨ s.pattern.Straddles ss) ∧
      (s.name ≠ Detector.debugMode.name →
        ((∃ f, .code f ∈ (Page.document url body ss).findings catalog ∧ f.detector = s.name) ↔
          ∃ t ∈ ss, s.pattern.Occurs t))) ∧
    ∀ r reply d, (Page.fetch r reply).result = .ok d →
      ∃ body ss, Page.scripts body.toList = .ok ss ∧ d = Page.document r.url body ss := by
  have hfound (url body : String) (ss : List (List Char)) :
      (∃ f, .code f ∈ (Page.document url body ss).findings catalog ∧ f.detector = s.name) ↔
        (∃ t ∈ ss, s.pattern.Occurs t) ∨ s.pattern.Straddles ss := by
    have hcode : (Page.document url body ss).codeText = some (String.ofList (joinScripts ss)) := rfl
    rw [Document.exists_code_finding rfl hcode hbuilt hs hkind, String.toList_ofList]
    by_cases hss : ss = []
    · subst hss
      simp [joinScripts, Detector.codes_need_text hkind, Pattern.Straddles]
    · exact Pattern.occurs_joinScripts hss
  refine ⟨fun url body ss => ⟨hfound url body ss, fun hname => ?_⟩, fun r reply d h => ?_⟩
  · have hnone : ¬ s.pattern.Straddles ss :=
      Pattern.not_straddles (Detector.codes_avoid_feed hkind hname)
    rw [hfound, or_iff_left hnone]
  · obtain ⟨status, reason, body, ss, -, hss, hd⟩ := Page.document_of_fetch h
    exact ⟨body, ss, hss, hd⟩

def cutCall : List (List Char) := ["model.create".toList, "(prompt)".toList]

theorem joined_scripts_findings_cut :
    ¬ ∃ f, .code f ∈ (Page.document "http://a" "" cutCall).findings (.build true) ∧
      f.detector = "API Calls" := by
  obtain ⟨hscripts, -⟩ := joined_scripts_findings (.build true)
    (fun t ht => List.mem_append_right _ ht) Detector.apiCalls List.mem_cons_self
    List.mem_cons_self
  obtain ⟨-, halone⟩ := hscripts "http://a" "" cutCall
  rw [show "API Calls" = Detector.apiCalls.name from rfl, halone (by decide)]
  have hnone : (cutCall.all fun t => (Detector.apiCalls.pattern.search t).isNone) = true := by
    decide
  rintro ⟨t, ht, hoccurs⟩
  have ht := List.all_eq_true.1 hnone t ht
  rw [← Pattern.isSome_search] at hoccurs
  simp_all

def debugPage : String := "<script>debug:</script><script>true</script>"

theorem debug_across_scripts :
    Page.scripts debugPage.toList = .ok ["debug:".toList, "true".toList] ∧
    ¬ ((∃ f, .code f ∈ (Page.document "http://a" debugPage
          ["debug:".toList, "true".toList]).findings (.build true) ∧
        f.detector = Detector.debugMode.name) ↔
      ∃ t ∈ ["debug:".toList, "true".toList], Detector.debugMode.pattern.Occurs t) := by
  have hfound : ((Page.document "http://a" debugPage
      ["debug:".toList, "true".toList]).codeFindings (.build true)).map CodeFinding.detector =
        ["Debug Mode"] := by decide
  have hnone : (["debug:".toList, "true".toList].all fun t =>
      (Detector.debugMode.pattern.search t).isNone) = true := by decide
  refine ⟨by decide, fun h => ?_⟩
  obtain ⟨f, hf, hname⟩ : ∃ f ∈ (Page.document "http://a" debugPage
      ["debug:".toList, "true".toList]).codeFindings (.build true), f.detector = "Debug Mode" :=
    List.mem_map.1 (hfound ▸ List.mem_cons_self)
  obtain ⟨t, ht, hoccurs⟩ := h.1 ⟨f, Document.code_mem_findings.2 hf, hname⟩
  have ht := List.all_eq_true.1 hnone t ht
  rw [← Pattern.isSome_search] at hoccurs
  simp_all

end LeakScan
