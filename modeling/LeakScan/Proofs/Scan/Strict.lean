import LeakScan.Command.Run
import LeakScan.Proofs.Config.Keys
import LeakScan.Proofs.Config.Skips
import LeakScan.Proofs.Document.Findings
import LeakScan.Proofs.Scan.Fold

namespace LeakScan

variable {m : Catalog.Mode} {d : Document} {t : Tally}

namespace Catalog

def broadNames : List String := ["Cohere", "AI21", "Azure OpenAI"]

theorem secrets_strict (m : Mode) :
    (ofMode .strict).secrets = (ofMode m).secrets.filter fun s => s.name ∉ broadNames := by
  cases m <;> rfl

theorem codes_ofMode (m : Mode) : (ofMode m).codes = Detector.codes := by cases m <;> rfl

theorem sensitiveFiles_ofMode (m : Mode) : (ofMode m).sensitiveFiles = sensitiveNames := by
  cases m <;> rfl

end Catalog

def KeyFinding.isNarrow (f : KeyFinding) : Bool := f.service ∉ Catalog.broadNames

namespace Document

variable {catalog : Catalog}

theorem keyFindings_strict (m : Catalog.Mode) :
    d.keyFindings (.ofMode .strict) = (d.keyFindings (.ofMode m)).filter KeyFinding.isNarrow := by
  unfold keyFindings
  split
  · rfl
  · next text _ =>
    rw [Catalog.secrets_strict m, List.filterMap_filter, List.filter_filterMap]
    -- A finding has the name of its detector, so both filters leave out the same.
    congr 1
    funext s
    cases hline : s.lineIn? text.toList with
    | none => simp
    | some n => simp [Option.filter, KeyFinding.isNarrow, keyFinding]

theorem codeFindings_strict (m : Catalog.Mode) :
    d.codeFindings (.ofMode .strict) = d.codeFindings (.ofMode m) := by
  unfold codeFindings
  rw [Catalog.codes_ofMode, Catalog.codes_ofMode]

theorem fileFindings_strict (m : Catalog.Mode) :
    d.fileFindings (.ofMode .strict) = d.fileFindings (.ofMode m) := by
  unfold fileFindings
  rw [Catalog.sensitiveFiles_ofMode, Catalog.sensitiveFiles_ofMode]

end Document

def Tally.narrowed (t : Tally) : Tally := { t with keys := t.keys.filter KeyFinding.isNarrow }

namespace Report

/-- The report without what the broad detectors found. -/
def narrowed (r : Report) : Report := { r with keys := r.keys.filter KeyFinding.isNarrow }

theorem totalIssues_narrowed (r : Report) : r.narrowed.totalIssues ≤ r.totalIssues := by
  have hkeys := List.length_filter_le KeyFinding.isNarrow r.keys
  simp only [totalIssues, narrowed]
  omega

theorem risk_narrowed (r : Report) : r.narrowed.risk.rank ≤ r.risk.rank :=
  Risk.rank_ofCount_le r.totalIssues_narrowed

end Report

namespace Tally

theorem report_narrowed (t : Tally) (stop : Moment) :
    t.narrowed.report stop = (t.report stop).narrowed := rfl

theorem addFindings_narrowed :
    (t.addFindings d (d.findings (.ofMode m))).narrowed =
      t.narrowed.addFindings d (d.findings (.ofMode .strict)) := by
  unfold addFindings
  simp only [foldl_addFinding, count_eq, narrowed, Document.keys_findings,
    Document.sensitive_findings, Document.code_findings, Document.keyFindings_strict m,
    Document.codeFindings_strict m, Document.fileFindings_strict m, List.filter_append]

theorem addVisit_narrowed (v : Visit) :
    (t.addVisit (.ofMode m) v).narrowed = t.narrowed.addVisit (.ofMode .strict) v := by
  cases v with
  | document path d => exact addFindings_narrowed
  | unlisted path relative e => rfl

theorem addVisits_narrowed (visits : List Visit) :
    (t.addVisits (.ofMode m) visits).narrowed = t.narrowed.addVisits (.ofMode .strict) visits := by
  unfold addVisits
  induction visits generalizing t with
  | nil => rfl
  | cons v visits ih =>
    rw [List.foldl_cons, List.foldl_cons, ih, addVisit_narrowed]

end Tally

theorem reportWalk_strict (m : Catalog.Mode) (root : String) (clock : Clock) (w : Walk) :
    reportWalk (.ofMode .strict) root clock w =
      (reportWalk (.ofMode m) root clock w).map Report.narrowed := by
  unfold reportWalk
  cases w.stopped with
  | some e => rfl
  | none =>
    rw [Except.map, ← Tally.report_narrowed, Tally.addVisits_narrowed]
    rfl

theorem scanDirectory_strict {strict config : Option Config} {disk : Disk} {given : String}
    {clock : Clock} (hmode : (Config.orDefault strict).mode = .strict)
    (hskips : (Config.orDefault strict).skips = (Config.orDefault config).skips) :
    (scanDirectory disk given strict clock).result =
      (scanDirectory disk given config clock).result.map Report.narrowed := by
  rw [result_scanDirectory, result_scanDirectory, hmode, hskips]
  cases (validateDirectory disk given).result with
  | error e => rfl
  | ok root =>
    simp only [Except.bind]
    cases (Config.orDefault config).skips with
    | error f => rfl
    | ok skips => exact reportWalk_strict _ root clock _

theorem result_scanPage {url : Option String} {config : Option Config} {reply : Page.Reply}
    {clock : Clock} :
    (scanPage url config reply clock).result =
      (Page.validateUrl url).bind fun u =>
        (Page.fetch ((Config.orDefault config).request u) reply).result.bind fun d =>
          .ok ((Tally.addFindings { target := .page u, startedAt := clock.start } d
            (d.findings (.ofMode (Config.orDefault config).mode))).report clock.stop) := by
  unfold scanPage scanPageOver
  simp only [Page.Exchange.answer_bind, Page.Exchange.run_done, Page.run_fetchOver,
    Noted.result_bind, Noted.lift, Noted.result_note, Except.bind]
  rfl

theorem scanPage_strict {strict config : Option Config} {url : Option String} {reply : Page.Reply}
    {clock : Clock} (hmode : (Config.orDefault strict).mode = .strict)
    (hrequest : ∀ u, (Config.orDefault strict).request u = (Config.orDefault config).request u) :
    (scanPage url strict reply clock).result =
      (scanPage url config reply clock).result.map Report.narrowed := by
  rw [result_scanPage, result_scanPage, hmode]
  cases Page.validateUrl url with
  | error e => rfl
  | ok u =>
    simp only [Except.bind, hrequest]
    cases (Page.fetch ((Config.orDefault config).request u) reply).result with
    | error e => rfl
    | ok d =>
      simp only [Except.map]
      rw [← Tally.report_narrowed, Tally.addFindings_narrowed]
      rfl

namespace Command

variable {disk : Disk} {s : Subject} {o : ScanOptions} {setting : Setting} {config : Config}

def Subject.order (o : ScanOptions) : Subject → Order
  | directory root => .scan root o
  | page url => .scanPage url o

theorem run_of_read {words : List String} (h : Order.read words = s.order o) :
    run disk setting words = runScan disk s o setting := by
  rw [run, h]
  cases s <;> rfl

def concluded (disk : Disk) (setting : Setting) (o : ScanOptions) :
    Except ScanFailure Report → Outcome
  | .ok r => publish disk setting o r
  | .error e =>
    if e.isReported then .ending disk 1 "" ("Error: " ++ e.message ++ "\n")
    else .crash disk (.scan e) ""

theorem runScan_of_load (setting : Setting)
    (h : (Config.load disk o.config s.settingsRoot).result = .ok config) :
    ∃ notes, runScan disk s o setting =
      let outcome := concluded disk setting o
        (s.scan disk (settingsOf o config) setting).result
      { outcome with
        errors := notes ++ outcome.errors
        requests := s.requests (settingsOf o config) } := by
  unfold runScan scanWith
  simp only [h]
  refine ⟨eventLines o.verbose (Config.load disk o.config s.settingsRoot).events ++
    eventLines o.verbose (s.scan disk (settingsOf o config) setting).events, ?_⟩
  cases (s.scan disk (settingsOf o config) setting).result with
  | ok r => simp only [concluded, String.append_assoc]
  | error e => simp only [concluded, String.append_assoc]

theorem Subject.requests_withBroad (hfault : config.fault? = none) (b : Bool) :
    s.requests (config.withBroad b) = s.requests config := by
  cases s with
  | directory root => rfl
  | page url => simp [requests, pageRequest?, Config.orDefault_of_fault? hfault]

theorem Subject.scan_strict (hfault : config.fault? = none) :
    (s.scan disk (config.withBroad false) setting).result =
      (s.scan disk config setting).result.map Report.narrowed := by
  cases s with
  | directory root =>
    exact scanDirectory_strict (by simp) (by simp [Config.orDefault_of_fault? hfault])
  | page url =>
    exact scanPage_strict (by simp) fun u => by simp [Config.orDefault_of_fault? hfault]

end Command

/-- With the broad detectors left out, a scan fails as it fails with them, or its report is the same
but for their findings, which are missing. So is that of a strict run of the program, whatever
settings it loads. -/
theorem strict_only_narrows :
    (∀ (disk : Disk) (given : String) (config : Config) (clock : Clock),
      (scanDirectory disk given (some (config.withBroad false)) clock).result =
        (scanDirectory disk given (some (config.withBroad true)) clock).result.map
          Report.narrowed) ∧
    (∀ (url : Option String) (config : Config) (reply : Page.Reply) (clock : Clock),
      pageRequest? url (some (config.withBroad false)) =
        pageRequest? url (some (config.withBroad true)) ∧
      (scanPage url (some (config.withBroad false)) reply clock).result =
        (scanPage url (some (config.withBroad true)) reply clock).result.map Report.narrowed) ∧
    (∀ (disk : Disk) (setting : Command.Setting) (words : List String) (s : Command.Subject)
        (o : Command.ScanOptions) (config : Config),
      Command.Order.read words = s.order o → o.strict = true →
      (Config.load disk o.config s.settingsRoot).result = .ok config →
      (s.scan disk (config.withBroad false) setting).result =
        (s.scan disk config setting).result.map Report.narrowed ∧
      ∃ notes, Command.run disk setting words =
        let outcome := Command.concluded disk setting o
          (s.scan disk (config.withBroad false) setting).result
        { outcome with errors := notes ++ outcome.errors, requests := s.requests config }) ∧
    ∀ r : Report, r.narrowed.totalIssues ≤ r.totalIssues ∧
      r.narrowed.risk.rank ≤ r.risk.rank := by
  refine ⟨fun disk given config clock => ?_, fun url config reply clock => ⟨?_, ?_⟩,
    fun disk setting words s o config hread hstrict hload => ?_,
    fun r => ⟨r.totalIssues_narrowed, r.risk_narrowed⟩⟩
  · exact scanDirectory_strict (by simp) (by simp)
  · simp [pageRequest?]
  · exact scanPage_strict (by simp) (by simp)
  · have hfault := Config.fault?_of_load hload
    have hsettings : Command.settingsOf o config = config.withBroad false := by
      rw [Command.settingsOf, if_pos hstrict, Config.withBroad]
    obtain ⟨notes, hrun⟩ := Command.runScan_of_load setting hload
    rw [hsettings, Command.Subject.requests_withBroad hfault] at hrun
    exact ⟨Command.Subject.scan_strict hfault, notes, (Command.run_of_read hread).trans hrun⟩

/-- A page that holds nothing but letters and digits, which fit two of the broad shapes. -/
def sampleSetting : Command.Setting where
  clock := sampleClock
  reply := .response 200 none "abcdefghijklmnopqrstuvwxyz0123456789ABCD"
  job := {}

theorem strict_only_narrows_page :
    ∃ r notes, ((Command.Subject.page "http://a").scan Walk.sampleDisk .default
        sampleSetting).result = .ok r ∧
      r.keys.map KeyFinding.service = ["Cohere", "AI21"] ∧ r.narrowed.keys = [] ∧
      Command.run Walk.sampleDisk sampleSetting ["scan-url", "http://a", "--strict"] =
        let outcome := Command.publish Walk.sampleDisk sampleSetting { strict := true } r.narrowed
        { outcome with
          errors := notes ++ outcome.errors
          requests := (Command.Subject.page "http://a").requests .default } := by
  obtain ⟨-, -, hcommand, -⟩ := strict_only_narrows
  obtain ⟨hscan, notes, hrun⟩ := hcommand Walk.sampleDisk sampleSetting
    ["scan-url", "http://a", "--strict"] (.page "http://a") { strict := true } .default
    (by decide) rfl rfl
  have hservices : ((Command.Subject.page "http://a").scan Walk.sampleDisk .default
      sampleSetting).result.map (fun r => r.keys.map KeyFinding.service) =
        .ok ["Cohere", "AI21"] := rfl
  cases hresult : ((Command.Subject.page "http://a").scan Walk.sampleDisk .default
      sampleSetting).result with
  | error e =>
    rw [hresult] at hservices
    cases hservices
  | ok r =>
    rw [hresult] at hscan hservices
    rw [hscan] at hrun
    have hkeys := Except.ok.inj hservices
    refine ⟨r, notes, rfl, hkeys, List.filter_eq_nil_iff.2 fun f hf => ?_, hrun⟩
    have hservice : f.service ∈ ["Cohere", "AI21"] := hkeys ▸ List.mem_map_of_mem hf
    have hbroad : f.service ∈ Catalog.broadNames :=
      List.mem_append_left ["Azure OpenAI"] hservice
    simpa [KeyFinding.isNarrow] using hbroad

end LeakScan
