import LeakScan.Proofs.Command.Printing

namespace LeakScan

namespace Command

variable {disk after after' : Disk} {setting : Setting} {s : Subject}
  {o o' : ScanOptions} {config : Config} {r : Report} {words : List String}

/-- The settings are found, the scan makes a report, and the files that are asked for can be
written. -/
structure Succeeds (disk : Disk) (setting : Setting) (s : Subject) (o : ScanOptions)
    (config : Config) (r : Report) (after : Disk) : Prop where
  loaded : (Config.load disk o.config s.settingsRoot).result = .ok config
  scanned : (s.scan disk (settingsOf o config) setting).result = .ok r
  written : Written disk (sheets o r.toJson (Sarif.ofReport r setting.job).toJson) after

theorem run_of_scan (hread : Order.read words = s.order o)
    (hloaded : (Config.load disk o.config s.settingsRoot).result = .ok config)
    (hscanned : (s.scan disk (settingsOf o config) setting).result = .ok r) :
    ∃ notes, run disk setting words =
      let outcome := publish disk setting o r
      { outcome with
        errors := notes ++ outcome.errors
        requests := s.requests (settingsOf o config) } := by
  obtain ⟨notes, hrun⟩ := runScan_of_load setting hloaded
  rw [hscanned] at hrun
  exact ⟨notes, (run_of_read hread).trans hrun⟩

namespace Succeeds

theorem run_eq (h : Succeeds disk setting s o config r after) (hread : Order.read words = s.order o) :
    ∃ notes, run disk setting words =
      let outcome := publish disk setting o r
      { outcome with
        errors := notes ++ outcome.errors
        requests := s.requests (settingsOf o config) } := run_of_scan hread h.loaded h.scanned

theorem exit (h : Succeeds disk setting s o config r after) (hread : Order.read words = s.order o)
    (hprints : Prints setting o r) : (run disk setting words).exit = o.failOn.code r.risk := by
  obtain ⟨notes, hrun⟩ := h.run_eq hread
  rw [hrun, publish_of_prints h.written hprints]

theorem output (h : Succeeds disk setting s o config r after) (hread : Order.read words = s.order o)
    (hprints : Prints setting o r) : (run disk setting words).output =
      joinLines (printed o r (Sarif.ofReport r setting.job).toJson) := by
  obtain ⟨notes, hrun⟩ := h.run_eq hread
  rw [hrun, publish_of_prints h.written hprints]

theorem disk_eq (h : Succeeds disk setting s o config r after)
    (hread : Order.read words = s.order o) (hprints : Prints setting o r) :
    (run disk setting words).disk = after := by
  obtain ⟨notes, hrun⟩ := h.run_eq hread
  rw [hrun, publish_of_prints h.written hprints]

theorem disk_run (h : Succeeds disk setting s o config r after)
    (hread : Order.read words = s.order o) :
    ∃ written, written <+: sheets o r.toJson (Sarif.ofReport r setting.job).toJson ∧
      Written disk written (run disk setting words).disk := by
  obtain ⟨notes, hrun⟩ := h.run_eq hread
  rw [hrun]
  exact disk_publish h.written

theorem disk_of_no_sheets (h : Succeeds disk setting s o config r after)
    (hread : Order.read words = s.order o)
    (hsheets : sheets o r.toJson (Sarif.ofReport r setting.job).toJson = []) :
    (run disk setting words).disk = disk := by
  obtain ⟨written, hfront, hwritten⟩ := h.disk_run hread
  rw [hsheets, List.prefix_nil] at hfront
  rw [hfront] at hwritten
  exact hwritten.eq_of_nil

theorem broken (h : Succeeds disk setting s o config r after)
    (hread : Order.read words = s.order o) (hrefuses : ¬ Prints setting o r) :
    setting.console.Breaks (printed o r (Sarif.ofReport r setting.job).toJson)
      (run disk setting words).exit := by
  obtain ⟨notes, hrun⟩ := h.run_eq hread
  rw [hrun]
  exact publish_refused h.written hrefuses

theorem prints_of_exit (h : Succeeds disk setting s o config r after)
    (hread : Order.read words = s.order o) {code : Nat}
    (hexit : (run disk setting words).exit = .ok code) : Prints setting o r := by
  by_contra hrefuses
  obtain ⟨text, -, words', -, hbroken⟩ := h.broken hread hrefuses
  rw [hexit] at hbroken
  cases hbroken

theorem reshown (h : Succeeds disk setting s o config r after) (hconfig : o'.config = o.config)
    (hstrict : o'.strict = o.strict)
    (hwritten : Written disk (sheets o' r.toJson (Sarif.ofReport r setting.job).toJson) after') :
    Succeeds disk setting s o' config r after' := by
  refine ⟨?_, ?_, hwritten⟩
  · rw [hconfig]
    exact h.loaded
  · have hsettings : settingsOf o' config = settingsOf o config := by
      rw [settingsOf, settingsOf, hstrict]
    rw [hsettings]
    exact h.scanned

theorem failingOn (h : Succeeds disk setting s o config r after) (t : Threshold) :
    Succeeds disk setting s { o with failOn := t } config r after :=
  ⟨h.loaded, h.scanned, h.written⟩

theorem strict (h : Succeeds disk setting s o config r after) :
    ∃ r', (s.scan disk (settingsOf { o with strict := true } config) setting).result = .ok r' ∧
      r'.totalIssues ≤ r.totalIssues ∧
      (Prints setting o r → Prints setting { o with strict := true } r') := by
  have hscanned := h.scanned
  cases hstrict : o.strict with
  | true =>
    refine ⟨r, ?_, Nat.le_refl _, id⟩
    rw [settingsOf, if_pos hstrict] at hscanned
    rwa [settingsOf, if_pos rfl]
  | false =>
    refine ⟨r.narrowed, ?_, r.totalIssues_narrowed, Prints.strict⟩
    rw [settingsOf, if_neg (by simp [hstrict])] at hscanned
    have hnarrow : (s.scan disk (config.withBroad false) setting).result =
        (s.scan disk config setting).result.map Report.narrowed :=
      Subject.scan_strict (Config.fault?_of_load h.loaded)
    rw [hscanned] at hnarrow
    rwa [settingsOf, if_pos rfl]

end Succeeds

variable {t : Threshold} {risk : Risk}

theorem Threshold.code_eq_one_iff : t.code r.risk = .ok 1 ↔
    t = .medium ∧ 1 ≤ r.findings.length ∨ t = .high ∧ 4 ≤ r.findings.length := by
  have hlow : r.risk = .low ↔ r.totalIssues = 0 := Risk.ofCount_eq_low_iff
  have hhigh : r.risk = .high ↔ 4 ≤ r.totalIssues := Risk.ofCount_eq_high_iff
  rw [r.length_findings]
  cases t with
  | never | blank => simp [code]
  | medium =>
    have hsome : r.risk ≠ .low ↔ 1 ≤ r.totalIssues := by rw [Ne, hlow, Nat.one_le_iff_ne_zero]
    rw [← hsome]
    cases r.risk <;> simp [code]
  | high =>
    rw [← hhigh]
    cases r.risk <;> simp [code]

theorem Threshold.code_eq_error_iff {c : Crash} :
    t.code risk = .error c ↔ t = .blank ∧ c = .noThreshold := by
  cases t <;> cases risk <;> simp [code, eq_comm]

theorem Threshold.code_eq_zero_iff : t.code risk = .ok 0 ↔ t ≠ .blank ∧ t.code risk ≠ .ok 1 := by
  cases t <;> cases risk <;> simp [code]

theorem Threshold.code_eq_of_length {r' : Report} (h : r'.findings.length = r.findings.length) :
    t.code r'.risk = t.code r.risk := by
  rw [Report.risk, Report.risk, ← r'.length_findings, ← r.length_findings, h]

theorem Threshold.code_eq_zero_mono {r' : Report} (hle : r'.totalIssues ≤ r.totalIssues)
    (h : t.code r.risk = .ok 0) : t.code r'.risk = .ok 0 := by
  rw [code_eq_zero_iff, Ne, Ne, code_eq_one_iff, r.length_findings] at h
  rw [code_eq_zero_iff, Ne, Ne, code_eq_one_iff, r'.length_findings]
  refine ⟨h.1, fun hone => h.2 ?_⟩
  rcases hone with ⟨ht, hcount⟩ | ⟨ht, hcount⟩
  · exact .inl ⟨ht, Nat.le_trans hcount hle⟩
  · exact .inr ⟨ht, Nat.le_trans hcount hle⟩

end Command

/-- The exit code of a scan that makes a report and can write its files. If standard output takes what
is printed, it is one exactly if there are enough findings for the threshold, and zero otherwise,
unless there is nothing to hold them against. JSON is always taken; a summary that is refused ends
the run without a code. How the report is shown, where it is written and what could not be read make
no difference; a number of findings that fails a run at high risk fails it at medium, and a run that
does not fail does not fail when it is strict. -/
theorem exit_code_by_findings :
    (∀ (disk after : Disk) (setting : Command.Setting) (words : List String) (s : Command.Subject)
        (o : Command.ScanOptions) (config : Config) (r : Report),
      Command.Order.read words = s.order o →
      Command.Succeeds disk setting s o config r after →
      (Command.Prints setting o r →
        ((Command.run disk setting words).exit = .ok 1 ↔
          o.failOn = .medium ∧ 1 ≤ r.findings.length ∨
            o.failOn = .high ∧ 4 ≤ r.findings.length) ∧
        ((Command.run disk setting words).exit = .ok 0 ↔
          o.failOn ≠ .blank ∧ (Command.run disk setting words).exit ≠ .ok 1) ∧
        ∀ c, (Command.run disk setting words).exit = .error c ↔
          o.failOn = .blank ∧ c = .noThreshold) ∧
      (¬ Command.Prints setting o r → setting.console.Breaks
        (Command.printed o r (Sarif.ofReport r setting.job).toJson)
        (Command.run disk setting words).exit) ∧
      (o.format = .json ∨ o.format = .sarif → Command.Prints setting o r)) ∧
    (∀ (disk after after' : Disk) (setting : Command.Setting) (words words' : List String)
        (s : Command.Subject) (o o' : Command.ScanOptions) (config : Config) (r : Report),
      Command.Order.read words = s.order o → Command.Order.read words' = s.order o' →
      o'.config = o.config → o'.strict = o.strict → o'.failOn = o.failOn →
      Command.Succeeds disk setting s o config r after →
      Command.Written disk (Command.sheets o' r.toJson (Sarif.ofReport r setting.job).toJson)
        after' →
      Command.Prints setting o r → Command.Prints setting o' r →
      (Command.run disk setting words').exit = (Command.run disk setting words).exit) ∧
    (∀ (disk disk' after after' : Disk) (setting setting' : Command.Setting)
        (words words' : List String) (s s' : Command.Subject) (o o' : Command.ScanOptions)
        (config config' : Config) (r r' : Report),
      Command.Order.read words = s.order o → Command.Order.read words' = s'.order o' →
      Command.Succeeds disk setting s o config r after →
      Command.Succeeds disk' setting' s' o' config' r' after' →
      Command.Prints setting o r → Command.Prints setting' o' r' →
      o'.failOn = o.failOn → r'.findings.length = r.findings.length →
      (Command.run disk' setting' words').exit = (Command.run disk setting words).exit) ∧
    (∀ (disk after : Disk) (setting : Command.Setting) (words words' : List String)
        (s : Command.Subject) (o : Command.ScanOptions) (config : Config) (r : Report),
      Command.Order.read words = s.order { o with failOn := .high } →
      Command.Order.read words' = s.order { o with failOn := .medium } →
      Command.Succeeds disk setting s o config r after →
      (Command.run disk setting words).exit = .ok 1 →
      (Command.run disk setting words').exit = .ok 1) ∧
    ∀ (disk after : Disk) (setting : Command.Setting) (words words' : List String)
        (s : Command.Subject) (o : Command.ScanOptions) (config : Config) (r : Report),
      Command.Order.read words = s.order o →
      Command.Order.read words' = s.order { o with strict := true } →
      Command.Succeeds disk setting s o config r after →
      (Command.run disk setting words).exit = .ok 0 →
      (Command.run disk setting words').exit = .ok 0 ∨
        ∃ e, (Command.run disk setting words').exit = .error (.path e) ∧
          ∀ r' after', ¬ Command.Succeeds disk setting s { o with strict := true } config r' after'
    := by
  refine ⟨fun disk after setting words s o config r hread h => ⟨fun hprints => ?_,
      h.broken hread, fun hformat => hformat.elim Command.prints_json Command.prints_sarif⟩,
    fun disk after after' setting words words' s o o' config r hread hread' hconfig hstrict hfail
      h hwritten hprints hprints' => ?_,
    fun disk disk' after after' setting setting' words words' s s' o o' config config' r r' hread
      hread' h h' hprints hprints' hfail hlength => ?_,
    fun disk after setting words words' s o config r hread hread' h hone => ?_,
    fun disk after setting words words' s o config r hread hread' h hzero => ?_⟩
  · rw [h.exit hread hprints]
    exact ⟨Command.Threshold.code_eq_one_iff, Command.Threshold.code_eq_zero_iff,
      fun c => Command.Threshold.code_eq_error_iff⟩
  · rw [h.exit hread hprints, (h.reshown hconfig hstrict hwritten).exit hread' hprints', hfail]
  · rw [h.exit hread hprints, h'.exit hread' hprints', hfail,
      Command.Threshold.code_eq_of_length hlength]
  · have hprints : Command.Prints setting o r := (h.failingOn .high).prints_of_exit hread hone
    rw [(h.failingOn .high).exit hread hprints, Command.Threshold.code_eq_one_iff] at hone
    rw [(h.failingOn .medium).exit hread' hprints, Command.Threshold.code_eq_one_iff]
    rcases hone with ⟨hmedium, -⟩ | ⟨-, hcount⟩
    · cases hmedium
    · exact .inl ⟨rfl, by omega⟩
  · have hprints := h.prints_of_exit hread hzero
    rw [h.exit hread hprints] at hzero
    obtain ⟨r', hscan, hle, hstrict⟩ := h.strict
    have hprints' := hstrict hprints
    rcases Command.written_or_broken disk hprints' with ⟨after', hwritten⟩ | ⟨e, he⟩
    · have h' : Command.Succeeds disk setting s { o with strict := true } config r' after' :=
        ⟨h.loaded, hscan, hwritten⟩
      rw [h'.exit hread' hprints']
      exact .inl (Command.Threshold.code_eq_zero_mono hle hzero)
    · obtain ⟨notes, hrun⟩ := Command.run_of_scan hread' h.loaded hscan
      refine .inr ⟨e, by rw [hrun, he], fun r'' after' h' => ?_⟩
      obtain rfl := Except.ok.inj (hscan.symm.trans h'.scanned)
      rw [Command.publish_of_prints h'.written hprints',
        Command.Threshold.code_eq_error_iff] at he
      cases he.2

/-- A page that holds what fits all three of the broad shapes, and a script with risky code. -/
def riskySetting : Command.Setting where
  clock := sampleClock
  reply := .response 200 none
    "0123456789abcdef0123456789abcdef01234567<script>key</script>"
  job := {}

theorem exit_code_by_findings_pages :
    (Command.run Walk.sampleDisk sampleSetting
      ["scan-url", "http://a", "--fail-on", "medium"]).exit = .ok 1 ∧
    (Command.run Walk.sampleDisk sampleSetting
      ["scan-url", "http://a", "--fail-on", "medium", "--format", "json", "--verbose"]).exit =
        .ok 1 ∧
    (Command.run ⟨.empty, []⟩ sampleSetting
      ["scan-url", "http://a", "--fail-on", "medium"]).exit = .ok 1 ∧
    (Command.run Walk.sampleDisk riskySetting
      ["scan-url", "http://a", "--fail-on", "high"]).exit = .ok 1 ∧
    (Command.run Walk.sampleDisk riskySetting
      ["scan-url", "http://a", "--fail-on", "medium"]).exit = .ok 1 ∧
    (Command.run Walk.sampleDisk sampleSetting
      ["scan-url", "http://a", "--fail-on", "high"]).exit = .ok 0 ∧
    (Command.run Walk.sampleDisk sampleSetting
      ["scan-url", "http://a", "--fail-on", "high", "--strict"]).exit = .ok 0 ∧
    (Command.run Walk.sampleDisk { sampleSetting with console := .ascii }
      ["scan-url", "http://a", "--fail-on", "medium"]).exit =
        .error (.print "ordinal not in range(128)") ∧
    (Command.run Walk.sampleDisk { sampleSetting with console := .ascii }
      ["scan-url", "http://a", "--fail-on", "medium", "--format", "json"]).exit = .ok 1 := by
  obtain ⟨hcode, hshown, hlength, hlowered, hstrict⟩ := exit_code_by_findings
  obtain ⟨r, hr, htwo⟩ : ∃ r, ((Command.Subject.page "http://a").scan Walk.sampleDisk .default
      sampleSetting).result = .ok r ∧ r.findings.length = 2 := ⟨_, rfl, rfl⟩
  have hprints (setting : Command.Setting) (hfull : setting.console = .full)
      (o : Command.ScanOptions) (r : Report) : Command.Prints setting o r := by
    intro text _
    rw [hfull]
    rfl
  obtain ⟨r', hr', hfour⟩ : ∃ r, ((Command.Subject.page "http://a").scan Walk.sampleDisk .default
      riskySetting).result = .ok r ∧ r.findings.length = 4 := ⟨_, rfl, rfl⟩
  have htold (t : Command.Threshold) : Command.Succeeds Walk.sampleDisk sampleSetting
      (.page "http://a") { failOn := t } .default r Walk.sampleDisk := ⟨rfl, hr, .nil _⟩
  have hrisky (t : Command.Threshold) : Command.Succeeds Walk.sampleDisk riskySetting
      (.page "http://a") { failOn := t } .default r' Walk.sampleDisk := ⟨rfl, hr', .nil _⟩
  have hone := (hcode _ _ _ ["scan-url", "http://a", "--fail-on", "medium"] _ _ _ _ (by decide)
    (htold .medium)).1 (hprints _ rfl _ _) |>.1.2 (.inl ⟨rfl, by omega⟩)
  have hzero : (Command.run Walk.sampleDisk sampleSetting
      ["scan-url", "http://a", "--fail-on", "high"]).exit = .ok 0 := by
    obtain ⟨hone, hzero, -⟩ := (hcode _ _ _ ["scan-url", "http://a", "--fail-on", "high"] _ _ _ _
      (by decide) (htold .high)).1 (hprints _ rfl _ _)
    rw [hzero, Ne, Ne, hone]
    exact ⟨by decide, by simp [htwo]⟩
  have hhigh := (hcode _ _ _ ["scan-url", "http://a", "--fail-on", "high"] _ _ _ _ (by decide)
    (hrisky .high)).1 (hprints _ rfl _ _) |>.1.2 (.inr ⟨rfl, by omega⟩)
  refine ⟨hone, ?_, ?_, hhigh, ?_, hzero, ?_, ?_, ?_⟩
  · exact (hshown _ _ _ _ ["scan-url", "http://a", "--fail-on", "medium"] _ (.page "http://a")
      { failOn := .medium } { failOn := .medium, format := .json, verbose := true } _ _
      (by decide) (by decide) rfl rfl rfl (htold .medium) (.nil _) (hprints _ rfl _ _)
      (hprints _ rfl _ _)).trans hone
  · have hempty : Command.Succeeds ⟨.empty, []⟩ sampleSetting (.page "http://a")
        { failOn := .medium } .default r ⟨.empty, []⟩ := ⟨rfl, hr, .nil _⟩
    exact (hlength _ _ _ _ _ _ ["scan-url", "http://a", "--fail-on", "medium"] _ _ _ _ _ _ _ _ _
      (by decide) (by decide) (htold .medium) hempty (hprints _ rfl _ _) (hprints _ rfl _ _) rfl
      rfl).trans hone
  · exact hlowered _ _ _ ["scan-url", "http://a", "--fail-on", "high"] _ (.page "http://a") {} _ _
      (by decide) (by decide) (hrisky .never) hhigh
  · obtain ⟨r'', hr'', -⟩ := (htold .high).strict
    rcases hstrict _ _ _ ["scan-url", "http://a", "--fail-on", "high"]
      ["scan-url", "http://a", "--fail-on", "high", "--strict"] (.page "http://a")
      { failOn := .high } _ _ (by decide) (by decide) (htold .high) hzero with h | ⟨e, -, hnone⟩
    · exact h
    · exact absurd ⟨rfl, hr'', .nil _⟩ (hnone r'' Walk.sampleDisk)
  · have hascii : Command.Succeeds Walk.sampleDisk { sampleSetting with console := .ascii }
        (.page "http://a") { failOn := .medium } .default r Walk.sampleDisk := ⟨rfl, hr, .nil _⟩
    obtain ⟨text, -, words, hrefusal, hexit⟩ :=
      (hcode _ _ _ ["scan-url", "http://a", "--fail-on", "medium"] _ _ _ _ (by decide) hascii).2.1
        (Command.not_prints_ascii rfl rfl)
    rw [hexit, Command.Console.refusal?_ascii hrefusal]
  · have hascii : Command.Succeeds Walk.sampleDisk { sampleSetting with console := .ascii }
        (.page "http://a") { failOn := .medium, format := .json } .default r Walk.sampleDisk :=
      ⟨rfl, hr, .nil _⟩
    have htaken := hcode _ _ _ ["scan-url", "http://a", "--fail-on", "medium", "--format", "json"]
      _ _ _ _ (by decide) hascii
    exact (htaken.1 (htaken.2.2 (.inl rfl))).1.2 (.inl ⟨rfl, by omega⟩)

/-- A scan that makes its report can end without an exit code: where two dashes stand for the
threshold, and where standard output refuses the summary that it would take as JSON. -/
theorem report_without_exit_code :
    ∃ config r,
      Command.Succeeds Walk.sampleDisk sampleSetting (.page "http://a") { failOn := .blank } config r
        Walk.sampleDisk ∧
      (Command.run Walk.sampleDisk sampleSetting ["scan-url", "http://a", "--fail-on=--"]).exit =
        .error .noThreshold ∧
      Command.Succeeds Walk.sampleDisk { sampleSetting with console := .ascii } (.page "http://a") {}
        config r Walk.sampleDisk ∧
      (Command.run Walk.sampleDisk { sampleSetting with console := .ascii }
        ["scan-url", "http://a"]).exit = .error (.print "ordinal not in range(128)") ∧
      (Command.run Walk.sampleDisk { sampleSetting with console := .ascii }
        ["scan-url", "http://a", "--format", "json"]).exit = .ok 0 := by
  obtain ⟨r, hr⟩ : ∃ r, ((Command.Subject.page "http://a").scan Walk.sampleDisk .default
      sampleSetting).result = .ok r := ⟨_, rfl⟩
  have hblank : Command.Succeeds Walk.sampleDisk sampleSetting (.page "http://a")
      { failOn := .blank } .default r Walk.sampleDisk := ⟨rfl, hr, .nil _⟩
  have hsummary : Command.Succeeds Walk.sampleDisk { sampleSetting with console := .ascii }
      (.page "http://a") {} .default r Walk.sampleDisk := ⟨rfl, hr, .nil _⟩
  have hjson : Command.Succeeds Walk.sampleDisk { sampleSetting with console := .ascii }
      (.page "http://a") { format := .json } .default r Walk.sampleDisk :=
    hsummary.reshown rfl rfl (.nil _)
  refine ⟨.default, r, hblank, ?_, hsummary, ?_, ?_⟩
  · exact hblank.exit (by decide) fun _ _ => rfl
  · have hread : Command.Order.read ["scan-url", "http://a"] =
        (Command.Subject.page "http://a").order {} := by decide
    obtain ⟨text, -, words, hrefusal, hexit⟩ := hsummary.broken hread (Command.not_prints_ascii rfl rfl)
    rw [hexit, Command.Console.refusal?_ascii hrefusal]
  · exact hjson.exit (by decide) (Command.prints_json rfl)

end LeakScan
