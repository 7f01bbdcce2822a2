import LeakScan.Proofs.Document.Findings
import LeakScan.Proofs.Page.Joined

namespace LeakScan

theorem forall₂_filterMap {α β : Type} {P : α → Prop} [DecidablePred P] {R : α → β → Prop}
    {f : α → Option β} (l : List α) (hyes : ∀ a, P a → ∃ b, f a = some b ∧ R a b)
    (hno : ∀ a, ¬ P a → f a = none) : List.Forall₂ R (l.filter fun a => P a) (l.filterMap f) := by
  induction l with
  | nil => exact .nil
  | cons a l ih =>
    by_cases ha : P a
    · obtain ⟨b, hb, hab⟩ := hyes a ha
      rw [List.filter_cons_of_pos (by simpa using ha), List.filterMap_cons_some hb]
      exact .cons hab ih
    · rw [List.filter_cons_of_neg (by simpa using ha), List.filterMap_cons_none (hno a ha)]
      exact ih

namespace Detector

def matching (ds : List Detector) (text : String) : List Detector :=
  ds.filter fun s => s.pattern.Occurs text.toList

def FoundBy {α : Type} (make : Detector → Nat → α) (text : String) (s : Detector) (f : α) : Prop :=
  ∃ n : Nat, 1 ≤ n ∧ n ≤ text.toList.count '\n' + 1 ∧ f = make s n

variable {s : Detector} {text : List Char}

theorem lineIn?_of_occurs (h : s.pattern.Occurs text) :
    ∃ n, s.lineIn? text = some n ∧ 1 ≤ n ∧ n ≤ text.count '\n' + 1 := by
  obtain ⟨m, hm⟩ := Option.isSome_iff_exists.1 (Pattern.isSome_search.2 h)
  refine ⟨Text.lineOf text m.word, ?_, Text.lineOf_bounds text m.word⟩
  rw [lineIn?, hm]
  rfl

theorem lineIn?_of_not_occurs (h : ¬ s.pattern.Occurs text) : s.lineIn? text = none := by
  rw [lineIn?, Option.not_isSome_iff_eq_none.1 (mt Pattern.isSome_search.1 h)]
  rfl

theorem forall₂_lineIn? {α : Type} (make : Detector → Nat → α) (ds : List Detector) (text : String) :
    List.Forall₂ (FoundBy make text) (matching ds text)
      (ds.filterMap fun s => (s.lineIn? text.toList).map (make s)) := by
  apply forall₂_filterMap
  · intro s hs
    obtain ⟨n, hn, hlow, hhigh⟩ := lineIn?_of_occurs hs
    exact ⟨make s n, by rw [hn]; rfl, n, hlow, hhigh, rfl⟩
  · intro s hs
    rw [lineIn?_of_not_occurs hs]
    rfl

theorem matching_empty {ds : List Detector}
    (h : ∀ t ∈ ds, t ∈ secrets ++ codes ∨ ¬ t.pattern.Occurs []) : matching ds "" = [] := by
  apply List.filter_eq_nil_iff.2
  intro t ht hoccurs
  have hoccurs : t.pattern.Occurs [] := of_decide_eq_true hoccurs
  cases h t ht with
  | inl hbuilt => exact not_occurs_nil hbuilt hoccurs
  | inr hnone => exact hnone hoccurs

end Detector

namespace Document

open Detector (FoundBy matching)

structure Mentions (d : Document) (name : String) (f : FileFinding) : Prop where
  file : f.file = d.path
  issue : f.issue = "Reference to sensitive file \"" ++ name ++ "\" found"
  line : f.line = none

/-- The findings of a document, told by the entries of a catalog. -/
structure ByEntry (d : Document) (catalog : Catalog) (keys : List KeyFinding)
    (codes : List CodeFinding) (files : List FileFinding) : Prop where
  unread : d.text = none → keys = [] ∧ codes = []
  keys : ∀ text, d.text = some text →
    List.Forall₂ (FoundBy d.keyFinding text) (matching catalog.secrets text) keys
  codesOfFile : d.origin = .file → ∀ text, d.text = some text →
    List.Forall₂ (FoundBy d.codeFinding text) (matching catalog.codes text) codes
  codesOfPage : d.origin = .page → d.text ≠ none →
    List.Forall₂ (FoundBy d.codeFinding (d.scriptText.getD ""))
      (matching catalog.codes (d.scriptText.getD "")) codes
  mentions : d.origin = .page → ∀ text, d.text = some text → text ≠ "" →
    List.Forall₂ d.Mentions
      (catalog.sensitiveFiles.filter fun name => name.toList <:+: text.toList) files
  unmentioned : d.origin = .page → d.text = none ∨ d.text = some "" → files = []
  named : d.origin = .file →
    files.length ≤ 1 ∧ (files ≠ [] ↔ Text.lower (baseName d.path) ∈ catalog.sensitiveFiles)
  lineless : ∀ f ∈ files, f.line = none

variable {d : Document} {catalog : Catalog} {text code : String}

theorem forall₂_keyFindings (htext : d.text = some text) :
    List.Forall₂ (FoundBy d.keyFinding text) (matching catalog.secrets text)
      (d.keyFindings catalog) := by
  rw [keyFindings, htext]
  exact Detector.forall₂_lineIn? d.keyFinding catalog.secrets text

theorem forall₂_codeFindings
    (hempty : ∀ t ∈ catalog.codes,
      t ∈ Detector.secrets ++ Detector.codes ∨ ¬ t.pattern.Occurs [])
    (htext : d.text = some text) (hcode : d.codeText = some code) :
    List.Forall₂ (FoundBy d.codeFinding code) (matching catalog.codes code)
      (d.codeFindings catalog) := by
  rw [codeFindings, htext, hcode]
  by_cases hcode : code = ""
  · rw [hcode, Detector.matching_empty hempty]
    exact .nil
  · simp only [String.isEmpty_iff, hcode, if_false]
    exact Detector.forall₂_lineIn? d.codeFinding catalog.codes code

theorem forall₂_mentions (hpage : d.origin = .page) (htext : d.text = some text) (hne : text ≠ "") :
    List.Forall₂ d.Mentions
      (catalog.sensitiveFiles.filter fun name => name.toList <:+: text.toList)
      (d.fileFindings catalog) := by
  simp only [fileFindings, hpage, htext, String.isEmpty_iff, hne, if_false]
  apply forall₂_filterMap
  · intro name hname
    refine ⟨_, if_pos (Text.holds_iff_infix.2 hname), ?_⟩
    exact ⟨rfl, rfl, rfl⟩
  · intro name hname
    exact if_neg (mt Text.holds_iff_infix.1 hname)

theorem fileFindings_of_empty (hpage : d.origin = .page)
    (htext : d.text = none ∨ d.text = some "") : d.fileFindings catalog = [] := by
  cases htext with
  | inl htext => simp only [fileFindings, hpage, htext]
  | inr htext =>
    simp only [fileFindings, hpage, htext]
    rfl

theorem fileFindings_of_name (hfile : d.origin = .file) :
    (d.fileFindings catalog).length ≤ 1 ∧
      (d.fileFindings catalog ≠ [] ↔ Text.lower (baseName d.path) ∈ catalog.sensitiveFiles) := by
  by_cases hname : Text.lower (baseName d.path) ∈ catalog.sensitiveFiles
  · simp [fileFindings, hfile, hname]
  · simp [fileFindings, hfile, hname]

/-- The findings of a document are those of its text, of its code and of its name or the names that
it holds, and nothing besides: one for each entry of the catalog that matches, in the order of the
catalog, the lines being lines of the text that was searched. A pattern for code that is not one of
the built-in ones must not occur in an empty text, since no code is looked for there. -/
theorem findings_by_entry (d : Document) (catalog : Catalog)
    (hempty : ∀ t ∈ catalog.codes,
      t ∈ Detector.secrets ++ Detector.codes ∨ ¬ t.pattern.Occurs []) :
    (∃ keys codes files, d.findings catalog =
        keys.map Finding.key ++ codes.map Finding.code ++ files.map Finding.sensitive ∧
      d.ByEntry catalog keys codes files) ∧
    ∀ f ∈ d.findings catalog, f.file = d.path := by
  refine ⟨⟨d.keyFindings catalog, d.codeFindings catalog, d.fileFindings catalog, rfl, ?_⟩,
    fun f hf => file_of_findings hf⟩
  exact {
    unread := fun htext => by simp only [keyFindings, codeFindings, htext, and_self]
    keys := fun text htext => forall₂_keyFindings htext
    codesOfFile := fun hfile text htext =>
      forall₂_codeFindings hempty htext (by rw [codeText, hfile]; exact htext)
    codesOfPage := fun hpage hread => by
      obtain ⟨text, htext⟩ := Option.ne_none_iff_exists'.1 hread
      exact forall₂_codeFindings hempty htext (by rw [codeText, hpage])
    mentions := fun hpage text htext hne => forall₂_mentions hpage htext hne
    unmentioned := fun hpage htext => fileFindings_of_empty hpage htext
    named := fun hfile => fileFindings_of_name hfile
    lineless := fun f hf => (place_of_fileFindings hf).2 }

/-- A catalog with detectors of both kinds in either list, with repeated entries and with a detector
of its own. -/
def mixedCatalog : Catalog where
  secrets := [Detector.apiCalls, Detector.hardcodedCredentials]
  codes := [Detector.apiCalls, Detector.openAI, ⟨"Model", .code, Pattern.word "model", false⟩,
    Detector.apiCalls]
  sensitiveFiles := [".env", "config.json", ".env"]

def mixedPage : Document where
  path := "https://a"
  text := some "the key of .env"
  origin := .page
  scriptText := some "\nmodel.create()"

theorem findings_by_entry_repeated :
    ∃ (keys : List KeyFinding) (codes : List CodeFinding) (files : List FileFinding),
      mixedPage.findings mixedCatalog =
        keys.map Finding.key ++ codes.map Finding.code ++ files.map Finding.sensitive ∧
      keys.length = 1 ∧ codes.length = 3 ∧ files.length = 2 := by
  have hempty : ∀ t ∈ mixedCatalog.codes,
      t ∈ Detector.secrets ++ Detector.codes ∨ ¬ t.pattern.Occurs [] := by
    simp only [mixedCatalog, List.forall_mem_cons]
    refine ⟨.inl ?_, .inl ?_, .inr (by decide), .inl ?_, by simp⟩
    all_goals simp [Detector.secrets, Detector.codes]
  obtain ⟨⟨keys, codes, files, hfindings, hentries⟩, -⟩ :=
    findings_by_entry mixedPage mixedCatalog hempty
  refine ⟨keys, codes, files, hfindings, ?_, ?_, ?_⟩
  · rw [← (hentries.keys _ rfl).length_eq]
    decide
  · rw [← (hentries.codesOfPage rfl (by decide)).length_eq]
    decide
  · rw [← (hentries.mentions rfl _ rfl (by decide)).length_eq]
    decide

end Document

end LeakScan
