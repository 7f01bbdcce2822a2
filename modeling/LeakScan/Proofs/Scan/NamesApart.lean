import LeakScan.Proofs.Report.Levels
import LeakScan.Proofs.Scan.Replies
import LeakScan.Proofs.Scan.Strict

namespace LeakScan

open Sarif

variable {d : Document} {catalog : Catalog} {r : Report} {f : Finding}

namespace Catalog

def namesOf (catalog : Catalog) : Finding.Kind → List String
  | .key => catalog.secrets.map Detector.name
  | .code => catalog.codes.map Detector.name
  | .sensitive => ["Sensitive File"]

def NamesApart (catalog : Catalog) : Prop :=
  ∀ kind kind' name, name ∈ catalog.namesOf kind → name ∈ catalog.namesOf kind' → kind = kind'

theorem namesApart_ofMode (m : Mode) : (ofMode m).NamesApart := by
  have hapart : ∀ m ∈ [Mode.broad, .strict], ∀ kind ∈ Finding.Kind.all, ∀ kind' ∈ Finding.Kind.all,
      ∀ name ∈ (ofMode m).namesOf kind, name ∈ (ofMode m).namesOf kind' → kind = kind' := by
    decide
  have hmode : m ∈ [Mode.broad, .strict] := by cases m <;> decide
  intro kind kind' name
  exact hapart m hmode kind kind.mem_all kind' kind'.mem_all name

end Catalog

theorem Document.ruleId_mem_namesOf (hf : f ∈ d.findings catalog) :
    f.ruleId ∈ catalog.namesOf f.kind := by
  simp only [findings, List.mem_append, List.mem_map] at hf
  rcases hf with (⟨k, hk, rfl⟩ | ⟨c, hc, rfl⟩) | ⟨s, -, rfl⟩
  · unfold keyFindings at hk
    split at hk
    · cases hk
    · obtain ⟨s, hs, hfound⟩ := List.mem_filterMap.1 hk
      obtain ⟨line, -, rfl⟩ := Option.map_eq_some_iff.1 hfound
      exact List.mem_map_of_mem hs
  · unfold codeFindings at hc
    split at hc
    · split at hc
      · cases hc
      · obtain ⟨s, hs, hfound⟩ := List.mem_filterMap.1 hc
        obtain ⟨line, -, rfl⟩ := Option.map_eq_some_iff.1 hfound
        exact List.mem_map_of_mem hs
    · cases hc
  · exact List.mem_singleton_self _

namespace Report

/-- Every finding was made with the catalog in some document. -/
def FoundWith (r : Report) (catalog : Catalog) : Prop :=
  ∀ f ∈ r.findings, ∃ d : Document, f ∈ d.findings catalog

theorem FoundWith.kindsApart (h : r.FoundWith catalog) (hapart : catalog.NamesApart) :
    r.KindsApart := by
  intro f hf g hg hname
  obtain ⟨d, hd⟩ := h f hf
  obtain ⟨e, he⟩ := h g hg
  refine hapart _ _ f.ruleId (Document.ruleId_mem_namesOf hd) ?_
  rw [hname]
  exact Document.ruleId_mem_namesOf he

theorem foundWith_of_documents (ds : List Document)
    (hkeys : r.keys = ds.flatMap fun d => (d.findings catalog).filterMap Finding.key?)
    (hfiles : r.sensitiveFiles = ds.flatMap fun d =>
      (d.findings catalog).filterMap Finding.sensitive?)
    (hcodes : r.codeIssues = ds.flatMap fun d => (d.findings catalog).filterMap Finding.code?) :
    r.FoundWith catalog := by
  intro f hf
  simp only [findings, hkeys, hfiles, hcodes, Document.keys_findings, Document.sensitive_findings,
    Document.code_findings, List.mem_append, List.mem_map, List.mem_flatMap] at hf
  rcases hf with (⟨k, ⟨d, -, hk⟩, rfl⟩ | ⟨s, ⟨d, -, hs⟩, rfl⟩) | ⟨c, ⟨d, -, hc⟩, rfl⟩
  · exact ⟨d, by simp [Document.findings, hk]⟩
  · exact ⟨d, by simp [Document.findings, hs]⟩
  · exact ⟨d, by simp [Document.findings, hc]⟩

theorem foundWith_of_scanDirectory {disk : Disk} {given : String} {config : Option Config}
    {clock : Clock} (h : (scanDirectory disk given config clock).result = .ok r) :
    r.FoundWith (.ofMode (Config.orDefault config).mode) := by
  obtain ⟨root, skips, -, -, hwalk⟩ := ok_scanDirectory h
  obtain ⟨-, -, hfolds⟩ := folds_of_reportWalk hwalk
  exact foundWith_of_documents _ hfolds.keys hfolds.sensitiveFiles hfolds.codeIssues

theorem foundWith_of_scanPage {url : Option String} {config : Option Config} {reply : Page.Reply}
    {clock : Clock} (h : (scanPage url config reply clock).result = .ok r) :
    r.FoundWith (.ofMode (Config.orDefault config).mode) := by
  rw [result_scanPage] at h
  cases hurl : Page.validateUrl url with
  | error e =>
    rw [hurl] at h
    cases h
  | ok u =>
    rw [hurl, Except.bind] at h
    cases hfetch : (Page.fetch ((Config.orDefault config).request u) reply).result with
    | error e =>
      rw [hfetch] at h
      cases h
    | ok d =>
      rw [hfetch, Except.bind, report_of_page] at h
      obtain rfl := Except.ok.inj h
      refine foundWith_of_documents [d] ?_ ?_ ?_
      · simp [Document.keys_findings]
      · simp [Document.sensitive_findings]
      · simp [Document.code_findings]

end Report

/-- In the log of any report the result of a finding has the level of its rule unless the finding is
no key and a key of that name was found too, and results share a rule just when their findings have
one name. So all results agree with their rules and each rule stands for findings of one kind just
when findings of one name are of one kind, which reports made with a catalog that keeps its names
apart ensure: those of all scans of directories and pages among them. -/
theorem results_and_rules (r : Report) (job : Job) :
    (ofReport r job).toJson.part? resultsPath = some (.arr (r.findings.map (resultIn r))) ∧
    (∀ f ∈ r.findings, AgreesWithRule (ofReport r job).toJson (resultIn r f) ↔
      f.kind = .key ∨ ¬ r.HasKeyOf f.ruleId) ∧
    (∀ f ∈ r.findings, ∀ g ∈ r.findings,
      SharesRule (resultIn r f) (resultIn r g) ↔ f.ruleId = g.ruleId) ∧
    ((∀ f ∈ r.findings, AgreesWithRule (ofReport r job).toJson (resultIn r f)) ∧
      (∀ f ∈ r.findings, ∀ g ∈ r.findings,
        SharesRule (resultIn r f) (resultIn r g) → f.kind = g.kind) ↔ r.KindsApart) ∧
    (∀ catalog : Catalog, catalog.NamesApart → r.FoundWith catalog → r.KindsApart) ∧
    (∀ disk given config clock, (scanDirectory disk given config clock).result = .ok r →
      r.KindsApart) ∧
    ∀ url config reply clock, (scanPage url config reply clock).result = .ok r →
      r.KindsApart := by
  refine ⟨results_ofReport r job, fun f hf => agreesWithRule_iff hf,
    fun f hf g hg => sharesRule_iff hf hg, ⟨?_, fun hapart => ?_⟩,
    fun catalog hapart h => h.kindsApart hapart, fun disk given config clock h => ?_,
    fun url config reply clock h => ?_⟩
  · rintro ⟨-, hshared⟩ f hf g hg hname
    exact hshared f hf g hg ((sharesRule_iff hf hg).2 hname)
  · refine ⟨fun f hf => (agreesWithRule_iff hf).2 ?_,
      fun f hf g hg hshared => hapart f hf g hg ((sharesRule_iff hf hg).1 hshared)⟩
    refine or_iff_not_imp_right.2 fun hkey => ?_
    obtain ⟨k, hk, hservice⟩ := not_not.1 hkey
    exact hapart f hf (.key k) (by simp [Report.findings, hk]) hservice.symm
  · exact (Report.foundWith_of_scanDirectory h).kindsApart (Catalog.namesApart_ofMode _)
  · exact (Report.foundWith_of_scanPage h).kindsApart (Catalog.namesApart_ofMode _)

def keyAndScript : Page.Reply :=
  .response 200 none "abcdefghijklmnopqrstuvwxyz012345 <script>let key</script>"

theorem results_and_rules_page :
    ∃ r, (scanPage (some "http://a") none keyAndScript sampleClock).result = .ok r ∧
      r.findings.map Finding.ruleId = ["AI21", "Hardcoded Credentials"] ∧ r.KindsApart ∧
      ∀ f ∈ r.findings, AgreesWithRule (ofReport r {}).toJson (resultIn r f) := by
  have hnames : (scanPage (some "http://a") none keyAndScript sampleClock).result.toOption.map
      (fun r => r.findings.map Finding.ruleId) = some ["AI21", "Hardcoded Credentials"] := by
    decide +kernel
  cases hresult : (scanPage (some "http://a") none keyAndScript sampleClock).result with
  | error e =>
    rw [hresult] at hnames
    cases hnames
  | ok r =>
    rw [hresult] at hnames
    obtain ⟨-, -, -, hagree, -, -, hpages⟩ := results_and_rules r {}
    have hapart := hpages _ _ _ _ hresult
    exact ⟨r, rfl, Option.some.inj hnames, hapart, (hagree.2 hapart).1⟩

def doubled : Catalog := ⟨[.openAI], [.openAI], []⟩

def keyFile : Document :=
  { path := "a.env", text := some "sk-abcdefghabcdefghabcdefghabcdefghabcdefghabcdefgh" }

def doubledReport : Report :=
  (Tally.addFindings { target := .directory "/srv/app", startedAt := .ofEpochMicros 0 } keyFile
    (keyFile.findings doubled)).report (.ofEpochMicros 0)

/-- The key is found as a key and as code. Both results point at the rule of the key, which has
another level than the second of them. -/
theorem doubled_disagrees :
    (∃ f ∈ doubledReport.findings,
      ¬ AgreesWithRule (ofReport doubledReport {}).toJson (resultIn doubledReport f)) ∧
    ∃ f ∈ doubledReport.findings, ∃ g ∈ doubledReport.findings,
      SharesRule (resultIn doubledReport f) (resultIn doubledReport g) ∧ f.kind ≠ g.kind := by
  have hfindings : doubledReport.findings =
      [.key (keyFile.keyFinding .openAI 1), .code (keyFile.codeFinding .openAI 1)] := by
    decide +kernel
  have hkey : .key (keyFile.keyFinding .openAI 1) ∈ doubledReport.findings := by
    rw [hfindings]
    exact List.mem_cons_self
  have hcode : .code (keyFile.codeFinding .openAI 1) ∈ doubledReport.findings := by
    rw [hfindings]
    exact List.mem_cons_of_mem _ (List.mem_singleton_self _)
  have hnamed : doubledReport.HasKeyOf "OpenAI" := Report.hasKeyOf_of_kind hkey rfl
  refine ⟨⟨_, hcode, fun hagrees => ?_⟩, _, hkey, _, hcode, (sharesRule_iff hkey hcode).2 ?_, ?_⟩
  · rcases (agreesWithRule_iff hcode).1 hagrees with hkind | hnone
    · cases hkind
    · exact hnone hnamed
  · rfl
  · exact Finding.Kind.noConfusion

end LeakScan
