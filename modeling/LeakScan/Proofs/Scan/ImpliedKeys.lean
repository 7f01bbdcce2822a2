import LeakScan.Proofs.Pattern.Implies
import LeakScan.Proofs.Scan.SourceLines
import Mathlib.Data.List.Perm.Subperm

namespace LeakScan

variable {d : Document} {f : KeyFinding} {e : Detector × Detector}

namespace Detector

/-- Detectors of which the first finds nothing without the second. -/
def implications : List (Detector × Detector) :=
  [(openAI, cohere), (cohere, ai21), (anthropic, ai21), (azureOpenAI, ai21), (huggingFace, ai21)]

theorem isAlnum_of_isHex {c : Char} (h : isHex c = true) : isAlnum c = true := by
  simp only [isHex, Bool.or_eq_true, Bool.and_eq_true, decide_eq_true_eq] at h
  show ((c.isUpper || c.isLower) || c.isDigit) = true
  rcases h with hdigit | ⟨hlow, hhigh⟩
  · rw [hdigit, Bool.or_true]
  · have hlast : c ≤ 'z' := Char.le_trans hhigh (by decide)
    have hsmall : c.isLower = true :=
      Bool.and_eq_true_iff.2 ⟨decide_eq_true hlow, decide_eq_true hlast⟩
    rw [hsmall, Bool.or_true, Bool.true_or]

theorem secrets_of_implications (he : e ∈ implications) : e.1 ∈ secrets ∧ e.2 ∈ secrets := by
  simp only [implications, List.mem_cons, List.not_mem_nil, or_false] at he
  rcases he with rfl | rfl | rfl | rfl | rfl <;> simp [secrets]

theorem implies_of_implications (he : e ∈ implications) : e.1.pattern.Implies e.2.pattern := by
  have hrun {m n : Nat} (hmn : m ≤ n) : (Pattern.times n (.one isAlnum)).Implies
      (Pattern.times m (.one isAlnum)) := Pattern.times_implies_times hmn fun _ hc => hc
  simp only [implications, List.mem_cons, List.not_mem_nil, or_false] at he
  rcases he with rfl | rfl | rfl | rfl | rfl
  · exact (hrun (by decide)).after _
  · exact hrun (by decide)
  · exact (hrun (by decide)).after _
  · exact Pattern.times_implies_times le_rfl fun _ => isAlnum_of_isHex
  · exact (hrun (by decide)).after _

end Detector

/-- The one finding has a line, and not one behind that of the other. -/
def KeyFinding.NoLaterThan (g f : KeyFinding) : Prop :=
  ∃ m n : Int, g.line = some m ∧ f.line = some n ∧ m ≤ n

theorem KeyFinding.length_le_of_services {names : List String} (hnames : names.Nodup)
    {keys : List KeyFinding} (h : ∀ name ∈ names, ∃ f ∈ keys, f.service = name) :
    names.length ≤ keys.length := by
  have hsubset : names ⊆ keys.map KeyFinding.service := fun name hname => by
    obtain ⟨f, hf, rfl⟩ := h name hname
    exact List.mem_map_of_mem hf
  have hlength := (List.subperm_of_subset hnames hsubset).length_le
  rwa [List.length_map] at hlength

namespace Document

theorem implied_key (he : e ∈ Detector.implications) (hf : f ∈ d.keyFindings (.ofMode .broad))
    (hname : f.service = e.1.name) :
    ∃ g ∈ d.keyFindings (.ofMode .broad), g.service = e.2.name ∧ g.NoLaterThan f := by
  obtain ⟨text, htext⟩ := text_of_keyFindings hf
  obtain ⟨s, hs, found, hfound, rfl⟩ := (mem_keyFindings htext).1 hf
  obtain ⟨hfirst, hsecond⟩ := Detector.secrets_of_implications he
  obtain rfl := Detector.eq_of_name_eq (List.mem_append_left _ (Catalog.secrets_of_mode hs))
    (List.mem_append_left _ hfirst) hname
  obtain ⟨implied, himplied, hline⟩ := (Detector.implies_of_implications he).search
    (Detector.secrets_avoid_feed hsecond) (Detector.secrets_avoid_feed hfirst) hfound
  have hmem : e.2 ∈ (Catalog.ofMode .broad).secrets := List.mem_filter.2 ⟨hsecond, rfl⟩
  exact ⟨_, (mem_keyFindings htext).2 ⟨e.2, hmem, implied, himplied, rfl⟩, rfl, _, _, rfl, rfl,
    Int.ofNat_le.2 hline⟩

def openAICompany : List String := ["OpenAI", "Cohere", "AI21"]

theorem company_of_openAI (hf : f ∈ d.keyFindings (.ofMode .broad)) (hname : f.service = "OpenAI") :
    ∀ name ∈ openAICompany, ∃ g ∈ d.keyFindings (.ofMode .broad), g.service = name := by
  obtain ⟨g, hg, hcohere, -⟩ :=
    implied_key (e := (Detector.openAI, Detector.cohere)) (by simp [Detector.implications]) hf hname
  obtain ⟨h, hh, hai21, -⟩ :=
    implied_key (e := (Detector.cohere, Detector.ai21)) (by simp [Detector.implications]) hg hcohere
  simp only [openAICompany, List.forall_mem_cons]
  exact ⟨⟨f, hf, hname⟩, ⟨g, hg, hcohere⟩, ⟨h, hh, hai21⟩, by simp⟩

end Document

/-- With all built-in detectors, a key of a provider whose shape holds that of another one comes
with a key of the other, on no later line. So a text that holds an OpenAI key has three findings
or more, and so has every file for which such a key is reported. -/
theorem keys_imply_keys :
    (∀ (d : Document), ∀ e ∈ Detector.implications, ∀ f, .key f ∈ d.findings (.ofMode .broad) →
      f.service = e.1.name →
      ∃ g, .key g ∈ d.findings (.ofMode .broad) ∧ g.service = e.2.name ∧ g.NoLaterThan f) ∧
    (∀ (d : Document) (text : String), d.text = some text →
      Detector.openAI.pattern.Occurs text.toList → 3 ≤ (d.findings (.ofMode .broad)).length) ∧
    ∀ (disk : Disk) (given : String) (config : Option Config) (clock : Clock) (report : Report),
      (Config.orDefault config).mode = .broad →
      (scanDirectory disk given config clock).result = .ok report →
      ∀ f ∈ report.keys, f.service = Detector.openAI.name →
        3 ≤ (report.findings.filter fun g => g.file = f.file).length := by
  have hcompany : Document.openAICompany.Nodup := by decide
  refine ⟨fun d e he f hf hname => ?_, fun d text htext hoccurs => ?_,
    fun disk given config clock report hmode hreport f hf hname => ?_⟩
  · obtain ⟨g, hg, hservice, hline⟩ :=
      Document.implied_key he (Document.key_mem_findings.1 hf) hname
    exact ⟨g, Document.key_mem_findings.2 hg, hservice, hline⟩
  · obtain ⟨found, hfound⟩ := Option.isSome_iff_exists.1 (Pattern.isSome_search.2 hoccurs)
    have hf : d.keyFinding Detector.openAI (Text.lineOf text.toList found.word) ∈
        d.keyFindings (.ofMode .broad) :=
      (Document.mem_keyFindings htext).2 ⟨Detector.openAI, List.mem_cons_self, found, hfound, rfl⟩
    have hkeys := KeyFinding.length_le_of_services hcompany (Document.company_of_openAI hf rfl)
    simp only [Document.findings, List.length_append, List.length_map]
    exact hkeys.trans (by omega)
  · obtain ⟨root, skips, -, -, hwalk⟩ := ok_scanDirectory hreport
    obtain ⟨-, -, hfolds⟩ := folds_of_reportWalk hwalk
    have hkeys := hfolds.keys
    simp only [hmode, Document.keys_findings] at hkeys
    rw [hkeys] at hf
    obtain ⟨d, hd, hf⟩ := List.mem_flatMap.1 hf
    -- The other keys are from the same document, so that they are for the same file.
    have hsame : ∀ name ∈ Document.openAICompany,
        ∃ g ∈ report.keys.filter (fun g => g.file = f.file), g.service = name := by
      intro name hmem
      obtain ⟨g, hg, hservice⟩ := Document.company_of_openAI hf hname name hmem
      have hfile : g.file = f.file := by
        rw [Document.file_of_keyFindings hg, Document.file_of_keyFindings hf]
      refine ⟨g, List.mem_filter.2 ⟨?_, by simpa using hfile⟩, hservice⟩
      rw [hkeys]
      exact List.mem_flatMap.2 ⟨d, hd, hg⟩
    have hthree := KeyFinding.length_le_of_services hcompany hsame
    simp only [Report.findings, List.filter_append, List.filter_map, List.length_append,
      List.length_map]
    exact hthree.trans (Nat.le_add_right_of_le (Nat.le_add_right _ _))

def identifierAndKey : String :=
  "abcdefghabcdefghabcdefghabcdefghabcdefgh\nsk-abcdefghabcdefghabcdefghabcdefghabcdefghabcdefgh"

def identifierDocument : Document := { path := "k", text := some identifierAndKey }

theorem documentAt_identifier :
    documentAt (keyDisk (Text.encodeUtf8 identifierAndKey.toList)) "/r/k" ["k"] =
      identifierDocument := by
  have hbytes (bytes : List UInt8) : (keyDisk bytes).readAt "/r/k" = .ok bytes := rfl
  have hdecoded : Text.decodeUtf8 (Text.encodeUtf8 identifierAndKey.toList) =
      .ok identifierAndKey.toList := by decide +kernel
  have huniform : Text.uniformLineEnds identifierAndKey.toList = identifierAndKey.toList := by
    decide
  simp [documentAt, hbytes, textOfBytes, hdecoded, Except.map, huniform, identifierDocument,
    relativeText]

theorem keys_imply_keys_identifier :
    (Detector.openAI, Detector.cohere) ∈ Detector.implications ∧
    Detector.openAI.pattern.Occurs identifierAndKey.toList ∧
    3 ≤ (identifierDocument.findings (.ofMode .broad)).length ∧
    (Config.orDefault none).mode = .broad ∧
    ∃ report f g, (scanDirectory (keyDisk (Text.encodeUtf8 identifierAndKey.toList)) "/r" none
        sampleClock).result = .ok report ∧
      f ∈ report.keys ∧ f.service = "OpenAI" ∧ f.line = some 2 ∧
      .key g ∈ identifierDocument.findings (.ofMode .broad) ∧ g.service = "Cohere" ∧
      g.NoLaterThan f ∧ 3 ≤ (report.findings.filter fun h => h.file = f.file).length := by
  obtain ⟨himplied, hdocument, hscan⟩ := keys_imply_keys
  have hpair : (Detector.openAI, Detector.cohere) ∈ Detector.implications := List.mem_cons_self
  have hsearch : (Detector.openAI.pattern.search identifierAndKey.toList).map
      (fun found => Text.lineOf identifierAndKey.toList found.word) = some 2 := by decide +kernel
  obtain ⟨found, hfound, hline⟩ := Option.map_eq_some_iff.1 hsearch
  have hoccurs : Detector.openAI.pattern.Occurs identifierAndKey.toList :=
    Pattern.isSome_search.1 (by rw [hfound]; rfl)
  have hf : identifierDocument.keyFinding Detector.openAI 2 ∈
      identifierDocument.keyFindings (.ofMode .broad) :=
    (Document.mem_keyFindings rfl).2 ⟨Detector.openAI, List.mem_cons_self, found, hfound,
      by rw [hline]⟩
  obtain ⟨g, hg, hservice, hnoLater⟩ :=
    himplied identifierDocument _ hpair _ (Document.key_mem_findings.2 hf) rfl
  have hmode : (Config.orDefault none).mode = .broad := by decide
  have hvalid : (validateDirectory (keyDisk (Text.encodeUtf8 identifierAndKey.toList))
      "/r").result = .ok "/r" := rfl
  have hdefault : (Config.orDefault none).skips = .ok .default := Config.skips_default
  have hwalk : walk (keyDisk (Text.encodeUtf8 identifierAndKey.toList)) .default "/r" =
      .visit (.document "/r/k" identifierDocument) := by
    rw [walk_keyDisk, documentAt_identifier]
  obtain ⟨report, hreport, -, hfolds⟩ :=
    report_of_completed sampleClock hvalid hdefault (by rw [hwalk]; rfl)
  have hkey : identifierDocument.keyFinding Detector.openAI 2 ∈ report.keys := by
    rw [hfolds.keys, hwalk, hmode]
    simpa [Walk.documents, Walk.visit, Visit.document?, Document.keys_findings] using hf
  exact ⟨hpair, hoccurs, hdocument identifierDocument identifierAndKey rfl hoccurs, hmode, report,
    _, g, hreport, hkey, rfl, rfl, hg, hservice, hnoLater,
    hscan _ "/r" none sampleClock report hmode hreport _ hkey rfl⟩

end LeakScan
