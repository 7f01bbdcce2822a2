import LeakScan.Proofs.Command.ExitCode
import LeakScan.Proofs.Config.Endings
import LeakScan.Proofs.Config.Template
import LeakScan.Proofs.Scan.NewFile
import LeakScan.Proofs.Scan.Root

namespace LeakScan

theorem Config.isRoot_ofLocation {disk : Disk} {place : Location} {entries : List (String × Node)}
    {access : Access} (hdisk : disk.root.WellFormed)
    (hdir : disk.locate (Path.ofLocation place) = .ok (.node place (.directory entries access))) :
    IsRoot disk (Path.ofLocation place) place :=
  ⟨Disk.canonical_ofLocation hdisk (Disk.at?_of_locateFrom (Disk.locate_ok hdir).2),
    Disk.holdsAt_of_node (Disk.node_eq_ok.2 ⟨place, hdir⟩)⟩

namespace Command

abbrev settingsName : String := ".keyhunter.yml"

def templateBytes : List UInt8 := Text.encodeUtf8 Config.template.toList

def withSettings (disk : Disk) (place : Location) (bytes : List UInt8) : Disk :=
  disk.withBytes (place ++ [settingsName]) bytes .full

abbrev withTemplate (disk : Disk) (place : Location) : Disk :=
  withSettings disk place templateBytes

def settingsDocument (text : String) : Document := { path := settingsName, text := some text }

abbrev templateDocument : Document := settingsDocument Config.template

/-- A directory without settings files that can be listed and written. -/
structure FreshRoot (disk : Disk) (place : Location) (entries : List (String × Node))
    (access : Access) : Prop where
  wellFormed : disk.root.WellFormed
  directory : disk.root.at? place = some (.directory entries access)
  readable : access.read = true
  writable : access.write = true
  missing : ∀ name ∈ Config.fileNames, Node.child? entries name = none

/-- No link in the directory asks for the settings file, to end there or to go on from there. -/
def Unasked (disk : Disk) (place : Location) (top : Node) : Prop :=
  ∀ q target, top.at? q = some (.link target) →
    place ++ [settingsName] ∉ disk.lookups (Walk.pathBelow (Path.ofLocation place) q)

variable {disk : Disk} {place : Location} {entries : List (String × Node)} {access : Access}
  {setting : Setting}
  {o : ScanOptions} {config c c' : Config} {report : Report} {words words' : List String}

theorem isName_of_fileNames : ∀ name ∈ Config.fileNames, Node.IsName name ∧
    name.utf8ByteSize ≤ Disk.nameLimit := by decide

theorem mem_fileNames : settingsName ∈ Config.fileNames := List.mem_cons_self

theorem orDefault_settingsOf (o : ScanOptions) (hfault : c.fault? = none) :
    Config.orDefault (some (settingsOf o c)) = settingsOf o c := by
  unfold settingsOf
  split
  · exact Config.orDefault_withBroad c false
  · exact Config.orDefault_of_fault? hfault

theorem skips_settingsOf (o : ScanOptions) (c : Config) : (settingsOf o c).skips = c.skips := by
  unfold settingsOf
  split
  · exact Config.skips_withBroad c false
  · rfl

theorem mode_settingsOf (o : ScanOptions) (c : Config) :
    (settingsOf o c).mode = if o.strict then .strict else c.mode := by
  unfold settingsOf
  split
  · exact Config.mode_withBroad c false
  · rfl

theorem scanDirectory_settingsOf (disk : Disk) (given : String) (clock : Clock) (o : ScanOptions)
    (hfault : c.fault? = none) (hfault' : c'.fault? = none) (hskips : c'.skips = c.skips)
    (hmode : c'.mode = c.mode) :
    scanDirectory disk given (some (settingsOf o c')) clock =
      scanDirectory disk given (some (settingsOf o c)) clock := by
  refine scanDirectory_congr ?_ fun root _ => ?_
  · rw [orDefault_settingsOf o hfault, orDefault_settingsOf o hfault', mode_settingsOf,
      mode_settingsOf, hmode]
  · rw [orDefault_settingsOf o hfault, orDefault_settingsOf o hfault', skips_settingsOf,
      skips_settingsOf, hskips]

theorem targetOf_ofLocation (hplace : ∀ name ∈ place, Node.IsName name) :
    targetOf (Path.ofLocation place) = Path.ofLocation (place ++ [settingsName]) := by
  rw [targetOf, Path.normal_ofLocation hplace, Path.below_ofLocation hplace]

theorem writeTemplate_of_vacant {console : Console} {root name : String} {directory : Location}
    {force : Bool} (hvacant : disk.locate (targetOf root) = .ok (.vacant directory name))
    (hwritable : disk.root.writableAt directory = true) :
    writeTemplate disk console root force =
      let written := disk.withBytes (directory ++ [name]) templateBytes .full
      .say console written ("Wrote " ++ targetOf root) (.ending written 0 "" "") := by
  have hnode : disk.node (targetOf root) = .error .noEntry := by rw [Disk.node, hvacant]
  have hpresent : disk.isPresent (targetOf root) = .ok false := Disk.holdsAt_of_absent hnode rfl
  have hwrite : disk.writeAt (targetOf root) templateBytes =
      .ok (disk.withBytes (directory ++ [name]) templateBytes .full) := by
    rw [Disk.writeAt, hvacant]
    exact if_pos hwritable
  have htemplate : Text.encodeUtf8 Config.template.toList = templateBytes := rfl
  unfold writeTemplate
  rw [htemplate]
  simp only [hpresent, Bool.false_and, Bool.false_eq_true, if_false, hwrite]

namespace FreshRoot

variable (h : FreshRoot disk place entries access)

include h

theorem isName : ∀ name ∈ place, Node.IsName name := h.wellFormed.isName_of_at? h.directory

theorem writableAt : disk.root.writableAt place = true := by
  rw [Node.writableAt, h.directory]
  exact h.writable

theorem gains (bytes : List UInt8) :
    disk.Gains (withSettings disk place bytes) (place ++ [settingsName]) bytes :=
  Disk.gains_withBytes h.directory (h.missing settingsName mem_fileNames)

theorem wellFormed_withSettings (bytes : List UInt8) :
    (withSettings disk place bytes).root.WellFormed :=
  Node.WellFormed.put h.directory h.wellFormed (isName_of_fileNames _ mem_fileNames).1 (.file _ _)

/-- A scan of the directory that makes a report has walked it, since its path is its own canonical
form. -/
theorem located_of_scan {config : Option Config} {clock : Clock}
    (hscan : (scanDirectory disk (Path.ofLocation place) config clock).result = .ok report) :
    disk.locate (Path.ofLocation place) = .ok (.node place (.directory entries access)) := by
  obtain ⟨root, skips, hvalid, -, -⟩ := ok_scanDirectory hscan
  obtain ⟨place', inner, access, hplace, rfl, hnode⟩ := accepted_of_validateDirectory hvalid
  rw [Disk.canonical_ofLocation h.wellFormed h.directory] at hplace
  obtain rfl := Except.ok.inj hplace
  rcases Disk.locate_ofLocation h.wellFormed h.directory with hl | ⟨f, hf, -⟩
  · exact hl
  · rw [hf] at hnode
    cases hnode

section Located

variable (hdir : disk.locate (Path.ofLocation place) = .ok (.node place (.directory entries access)))

include hdir

theorem locate_withSettings (bytes : List UInt8) : ∃ entries',
    (withSettings disk place bytes).locate (Path.ofLocation place) =
      .ok (.node place (.directory entries' access)) := by
  have hgains := h.gains bytes
  have hnode : disk.node (Path.ofLocation place) = .ok (.directory entries access) :=
    Disk.node_eq_ok.2 ⟨place, hdir⟩
  have hfree : place ++ [settingsName] ∉ disk.lookups (Path.ofLocation place) :=
    Disk.not_lookups hgains.missing (by simp [hnode])
  have hne : place ≠ place ++ [settingsName] := by simp
  obtain ⟨entries', hat'⟩ : ∃ entries',
      (withSettings disk place bytes).root.at? place = some (.directory entries' access) := by
    rcases hgains.directory_or hne with ⟨inner, inner', w, hat, hat'⟩ | ⟨-, hno⟩
    · rw [h.directory] at hat
      obtain ⟨-, rfl⟩ := Node.directory.inj (Option.some.inj hat)
      exact ⟨inner', hat'⟩
    · exact absurd h.directory (hno entries access)
  refine ⟨entries', ?_⟩
  rcases Disk.locate_ofLocation (h.wellFormed_withSettings bytes) hat' with hl | ⟨f, hf, -⟩
  · exact hl
  · rcases hgains.node_near (Path.isAbsolute_ofLocation place) hfree with heq | ⟨_, _, _, -, heq⟩
    · rw [hnode, hf] at heq
      cases heq
    · rw [hf] at heq
      cases heq

theorem isPresent_missing {name : String} (hname : name ∈ Config.fileNames) :
    disk.isPresent (Path.ofLocation (place ++ [name])) ≠ .ok true ∧
    (disk.isPresent (Path.ofLocation (place ++ [name])) = .ok false → access.search = true ∧
      disk.locate (Path.ofLocation (place ++ [name])) = .ok (.vacant place name)) := by
  obtain ⟨hisName, hshort⟩ := isName_of_fileNames name hname
  have hhidden (hhides : disk.Hides (Path.ofLocation (place ++ [name]))) :
      ∃ e, disk.isPresent (Path.ofLocation (place ++ [name])) = .error e := by
    obtain ⟨f, hf⟩ := Disk.holdsAt_of_hides hhides
    exact ⟨_, hf⟩
  cases hsearch : access.search with
  | false =>
    obtain ⟨e, he⟩ := hhidden (by
      rw [← Path.below_ofLocation h.isName,
        Path.below_of_isAbsolute (Path.isAbsolute_ofLocation place)]
      exact Disk.hides_listed_closed hisName hdir hsearch)
    rw [he]
    exact ⟨nofun, nofun⟩
  | true =>
    have hlocate :=
      Disk.locate_ofLocation_missing h.isName hisName hshort hdir (h.missing name hname) hsearch
    split at hlocate
    · obtain ⟨e, he⟩ := hhidden (Disk.hides_iff.2 ⟨_, hlocate, rfl⟩)
      rw [he]
      exact ⟨nofun, nofun⟩
    · have hvacant : disk.node (Path.ofLocation (place ++ [name])) = .error .noEntry := by
        rw [Disk.node, hlocate]
      rw [Disk.isPresent, Disk.holdsAt_of_absent hvacant rfl]
      exact ⟨by simp, fun _ => ⟨rfl, hlocate⟩⟩

theorem loaded (hload : (Config.load disk none (Path.ofLocation place)).result = .ok config) :
    config = .default ∧ access.search = true ∧
      disk.locate (Path.ofLocation (place ++ [settingsName])) =
        .ok (.vacant place settingsName) := by
  have hroot := Config.isRoot_ofLocation h.wellFormed hdir
  have habsent : ∀ path ∈ Config.filesAt place, disk.isPresent path ≠ .ok true := by
    intro path hpath
    obtain ⟨name, hname, rfl⟩ := List.mem_map.1 hpath
    exact (h.isPresent_missing hdir hname).1
  rw [Config.load_eq] at hload
  obtain ⟨hconfig, hmissing⟩ := Config.loadFound_of_absent hroot habsent hload
  exact ⟨hconfig,
    (h.isPresent_missing hdir mem_fileNames).2 (hmissing _ (List.mem_map_of_mem mem_fileNames))⟩

section Vacant

variable (hsearch : access.search = true)
  (hvacant : disk.locate (Path.ofLocation (place ++ [settingsName])) =
    .ok (.vacant place settingsName))

include hvacant

theorem run_init {force : Bool} (setting : Setting)
    (hread : Order.read words = .init (Path.ofLocation place) force) :
    (run disk setting words).disk = withTemplate disk place ∧
      (setting.console.refusal? ("Wrote " ++ targetOf (Path.ofLocation place)) = none →
        (run disk setting words).exit = .ok 0) := by
  have hdirectory := (Config.isRoot_ofLocation h.wellFormed hdir).2
  have htarget := hvacant
  rw [← targetOf_ofLocation h.isName] at htarget
  have hinit : runInit disk setting.console (Path.ofLocation place) force =
      writeTemplate disk setting.console (Path.ofLocation place) force := by
    unfold runInit
    simp only [Path.normal_ofLocation h.isName, hdirectory]
  rw [run, hread, carryOut, hinit, writeTemplate_of_vacant htarget h.writableAt]
  refine ⟨Outcome.disk_say rfl, fun htaken => ?_⟩
  simp only [Outcome.say_taken htaken]
  rfl

include hsearch

theorem locate_settings (bytes : List UInt8) : (withSettings disk place bytes).locate
    (Path.ofLocation (place ++ [settingsName])) =
      .ok (.node (place ++ [settingsName]) (.file bytes .full)) := by
  obtain ⟨entries', hdir'⟩ := h.locate_withSettings hdir bytes
  have hchild : Node.child? entries' settingsName = some (.file bytes .full) := by
    rw [Node.child?_eq_at? (Disk.at?_of_locateFrom (Disk.locate_ok hdir').2),
      (h.gains bytes).gained]
  have hshort := (Disk.locate_ok hvacant).1
  obtain ⟨hname, hsize⟩ := isName_of_fileNames settingsName mem_fileNames
  rw [← Path.below_ofLocation h.isName, Disk.locate_below hname hdir' hchild (by simp),
    Path.below_ofLocation h.isName, if_neg (by omega), hsearch, if_neg (by simp), if_neg (by omega)]

theorem load_withSettings {bytes : List UInt8} (hbytes : Config.ofBytes bytes = .ok c) :
    (Config.load (withSettings disk place bytes) none (Path.ofLocation place)).result = .ok c := by
  obtain ⟨entries', hdir'⟩ := h.locate_withSettings hdir bytes
  have hnode := Disk.node_eq_ok.2 ⟨_, h.locate_settings hdir hsearch hvacant bytes⟩
  have hroot := Config.isRoot_ofLocation (h.wellFormed_withSettings bytes) hdir'
  have hread : Config.ofFile (withSettings disk place bytes)
      (Path.ofLocation (place ++ [settingsName])) = .ok c := by
    rw [Config.ofFile, Disk.readAt_of_readable hnode rfl]
    exact hbytes
  have hload : Config.loadFound (withSettings disk place bytes) (Path.ofLocation place) = _ :=
    Config.loadFound_of_reached hroot (Config.reached_cons.2 (.inl rfl))
      (Disk.holdsAt_of_node hnode)
  rw [Config.load_eq]
  simp only [Config.wanted?, Option.filter_none]
  rw [hload, Config.loadFile, hread]

theorem documentAt_settings {bytes : List UInt8} {text : String}
    (htext : textOfBytes bytes = .ok text) : documentAt (withSettings disk place bytes)
      (Walk.pathBelow (Path.ofLocation place) [settingsName]) [settingsName] =
        settingsDocument text := by
  have hpath : Walk.pathBelow (Path.ofLocation place) [settingsName] =
      Path.ofLocation (place ++ [settingsName]) := Path.below_ofLocation h.isName settingsName
  have hnode := Disk.node_eq_ok.2 ⟨_, h.locate_settings hdir hsearch hvacant bytes⟩
  have hread : (withSettings disk place bytes).readAt (Path.ofLocation (place ++ [settingsName])) =
      .ok bytes := Disk.readAt_of_readable hnode rfl
  rw [documentAt, hpath, hread]
  simp only [htext]
  rfl

/-- A scan gives what the same scan gave before, and what is found in the file, if the settings are
as good. -/
theorem scan_withSettings (hlinks : Unasked disk place (.directory entries access)) {bytes : List UInt8} {text : String}
    {clock : Clock} (hfault : c.fault? = none) (hskips : c.skips = .ok .default)
    (hmode : c.mode = .broad) (htext : textOfBytes bytes = .ok text)
    (hscan : (scanDirectory disk (Path.ofLocation place) (some (settingsOf o .default))
      clock).result = .ok report) :
    ∃ report', (scanDirectory (withSettings disk place bytes) (Path.ofLocation place)
        (some (settingsOf o c)) clock).result = .ok report' ∧
      report.GainsDocument (.ofMode (settingsOf o c).mode) [settingsName] (settingsDocument text)
        report' := by
  obtain ⟨entries', hdir'⟩ := h.locate_withSettings hdir bytes
  have hgains : Walk.RootGains disk (withSettings disk place bytes) (Path.ofLocation place) place
      settingsName entries entries' access bytes :=
    ⟨h.gains bytes, hdir, hdir', h.readable, Path.isAbsolute_ofLocation place,
      Disk.wellFormed_node h.wellFormed (Disk.node_eq_ok.2 ⟨place, hdir⟩),
      Disk.wellFormed_node (h.wellFormed_withSettings bytes) (Disk.node_eq_ok.2 ⟨place, hdir'⟩),
      hlinks⟩
  have hsame : scanDirectory disk (Path.ofLocation place) (some (settingsOf o c)) clock =
      scanDirectory disk (Path.ofLocation place) (some (settingsOf o .default)) clock :=
    scanDirectory_settingsOf disk _ clock o Config.fault?_default hfault
      (hskips.trans Config.skips_default.symm) hmode
  have horDefault := orDefault_settingsOf o hfault
  have hset : (Config.orDefault (some (settingsOf o c))).skips = .ok .default := by
    rw [horDefault, skips_settingsOf, hskips]
  rw [← hsame, result_of_valid (validateDirectory_ofLocation h.wellFormed hdir) hset,
    horDefault] at hscan
  rw [result_of_valid (validateDirectory_ofLocation (h.wellFormed_withSettings bytes) hdir') hset,
    horDefault]
  have hdocument := h.documentAt_settings hdir hsearch hvacant htext
  have hsuffix : skipsFile .default settingsName = false := by decide
  obtain ⟨report', hreport', hadded⟩ :=
    gains_of_reportWalk hgains hsuffix (by rw [hdocument]; rfl) hscan
  rw [hdocument] at hadded
  exact ⟨report', hreport', hadded⟩

end Vacant

end Located

end FreshRoot

end Command

/-- Writing the settings file into a directory that has none and can be written succeeds where a scan
of the directory does, and adds this file and nothing else. That it has been written can be printed,
or the run breaks off when it is. The same scan afterwards gives the same report, but for one file
more and what is found in it, which stands where the order of names has it. The settings in the file
are as good as the default ones on every tree. -/
theorem init_adds_one_file (disk : Disk) (place : Location) (entries : List (String × Node))
    (access : Access) (h : Command.FreshRoot disk place entries access)
    (hlinks : Command.Unasked disk place (.directory entries access))
    (setting : Command.Setting) (words words' : List String) (o : Command.ScanOptions)
    (config : Config) (report : Report)
    (hread : Command.Order.read words = .scan (Path.ofLocation place) o)
    (hconfig : o.config = none) (hjson : o.jsonFile = none) (hsarif : o.sarifFile = none)
    (hsucceeds : Command.Succeeds disk setting (.directory (Path.ofLocation place)) o config report
      disk)
    (hinit : Command.Order.read words' = .init (Path.ofLocation place) false) :
    (Command.run disk setting words).disk = disk ∧
    (Command.run disk setting words').disk = Command.withTemplate disk place ∧
    (setting.console.refusal? ("Wrote " ++ Path.ofLocation (place ++ [Command.settingsName])) = none →
      (Command.run disk setting words').exit = .ok 0) ∧
    ∃ config' report',
      Command.Succeeds (Command.withTemplate disk place) setting
        (.directory (Path.ofLocation place)) o config' report'
        (Command.withTemplate disk place) ∧
      report.GainsDocument (.ofMode (Command.settingsOf o config').mode) [Command.settingsName]
        Command.templateDocument report' ∧
      report'.risk = .ofCount (report.totalIssues + (Command.templateDocument.findings
        (.ofMode (Command.settingsOf o config').mode)).length) ∧
      ∀ (d : Disk) (given : String) (clock : Clock) (o' : Command.ScanOptions),
        scanDirectory d given (some (Command.settingsOf o' config')) clock =
          scanDirectory d given (some (Command.settingsOf o' .default)) clock := by
  have hsheets (x y : Json) : Command.sheets o x y = [] := by
    simp [Command.sheets, hjson, hsarif]
  have hscan : (scanDirectory disk (Path.ofLocation place)
      (some (Command.settingsOf o config)) setting.clock).result = .ok report := hsucceeds.scanned
  have hdir := h.located_of_scan hscan
  obtain ⟨rfl, hsearch, hvacant⟩ := h.loaded hdir (hconfig ▸ hsucceeds.loaded)
  obtain ⟨hwritten, hexit⟩ := h.run_init hdir hvacant setting hinit
  rw [Command.targetOf_ofLocation h.isName] at hexit
  obtain ⟨c, hbytes, hskips, hmode⟩ := Config.ofBytes_template
  have hload : (Config.load (Command.withTemplate disk place) none
      (Path.ofLocation place)).result = .ok c := h.load_withSettings hdir hsearch hvacant hbytes
  have hfault := Config.fault?_of_load hload
  obtain ⟨report', hreport', hgains⟩ :=
    h.scan_withSettings hdir hsearch hvacant hlinks hfault hskips hmode Config.textOfBytes_template
      hscan
  refine ⟨hsucceeds.disk_of_no_sheets hread (hsheets _ _), hwritten, hexit, c, report',
    ⟨?_, hreport', ?_⟩, hgains, ?_, fun d given clock o' => ?_⟩
  · rw [hconfig]
    exact hload
  · rw [hsheets]
    exact .nil _
  · rw [Report.risk, hgains.totalIssues]
  · exact Command.scanDirectory_settingsOf d given clock o' Config.fault?_default hfault
      (hskips.trans Config.skips_default.symm) hmode

theorem Command.unasked_sample : Command.Unasked Walk.sampleDisk ["r"] (.directory Walk.sampleEntries .full) := by
  intro q target hat
  obtain ⟨c, rest, n, rfl, hmem, hn⟩ := Node.at?_directory_link hat
  simp only [Walk.sampleEntries, List.mem_cons, Prod.mk.injEq, List.not_mem_nil, or_false] at hmem
  rcases hmem with ⟨rfl, rfl⟩ | ⟨rfl, rfl⟩ | ⟨rfl, rfl⟩ | ⟨rfl, rfl⟩ | ⟨rfl, rfl⟩
  · obtain ⟨c, rest, n, rfl, hmem, hn⟩ := Node.at?_directory_link hn
    simp only [List.mem_singleton, Prod.mk.injEq] at hmem
    obtain ⟨rfl, rfl⟩ := hmem
    exact absurd (Node.eq_link_of_at? hn rfl).2 (by simp)
  · exact absurd (Node.eq_link_of_at? hn rfl).2 (by simp)
  · obtain ⟨rfl, -⟩ := Node.eq_link_of_at? hn rfl
    decide
  · exact absurd (Node.eq_link_of_at? hn rfl).2 (by simp)
  · obtain ⟨rfl, -⟩ := Node.eq_link_of_at? hn rfl
    decide

theorem init_adds_one_file_sample :
    Command.FreshRoot Walk.sampleDisk ["r"] Walk.sampleEntries .full ∧
    Command.Unasked Walk.sampleDisk ["r"] (.directory Walk.sampleEntries .full) ∧
    ∃ report config' report',
      Command.Succeeds Walk.sampleDisk sampleSetting (.directory "/r") {} .default report
        Walk.sampleDisk ∧
      (Command.run Walk.sampleDisk sampleSetting ["init", "/r"]).exit = .ok 0 ∧
      (Command.run Walk.sampleDisk sampleSetting ["init", "/r"]).disk =
        Command.withTemplate Walk.sampleDisk ["r"] ∧
      Command.Succeeds (Command.withTemplate Walk.sampleDisk ["r"]) sampleSetting
        (.directory "/r") {} config' report' (Command.withTemplate Walk.sampleDisk ["r"]) ∧
      report'.filesScanned = report.filesScanned + 1 := by
  have hfresh : Command.FreshRoot Walk.sampleDisk ["r"] Walk.sampleEntries .full :=
    ⟨Walk.wellFormed_sampleDisk, rfl, rfl, rfl, by decide⟩
  have hvalid : (validateDirectory Walk.sampleDisk "/r").result = .ok "/r" := rfl
  have hdefault : (Config.orDefault (some .default)).skips = .ok .default := Config.skips_default
  obtain ⟨report, hreport, -⟩ := report_of_completed sampleSetting.clock hvalid hdefault
    (by rw [Walk.walk_sampleDisk])
  have hsucceeds : Command.Succeeds Walk.sampleDisk sampleSetting (.directory "/r") {} .default
      report Walk.sampleDisk := ⟨rfl, hreport, .nil _⟩
  obtain ⟨-, hdisk, hexit, config', report', hsucceeds', hgains, -⟩ :=
    init_adds_one_file Walk.sampleDisk ["r"] Walk.sampleEntries .full hfresh Command.unasked_sample
      sampleSetting ["scan", "/r"] ["init", "/r"] {} .default report (by decide) rfl rfl rfl
      hsucceeds (by decide)
  exact ⟨hfresh, Command.unasked_sample, report, config', report', hsucceeds, hexit rfl, hdisk,
    hsucceeds', hgains.filesScanned⟩

def throughDisk : Disk :=
  ⟨.directory [("ROOT", .directory [("l", .link ".keyhunter.yml/x")] .full)] .full, ["ROOT"]⟩

def readOnlyDisk : Disk := ⟨.directory [("ROOT", .directory [] { write := false })] .full, []⟩

def accentDisk : Disk := ⟨.directory [("ü", .directory [] .full)] .full, []⟩

theorem exists_report_of_empty (disk : Disk) (root : String) (clock : Clock) {access : Access}
    (hvalid : (validateDirectory disk root).result = .ok root)
    (hnode : disk.node root = .ok (.directory [] access)) (hread : access.read = true) :
    ∃ report, (scanDirectory disk root (some .default) clock).result = .ok report := by
  have hdefault : (Config.orDefault (some .default)).skips = .ok .default := Config.skips_default
  have hdone : (walk disk .default root).stopped = none := by
    rw [Walk.walk_of_ascending hnode hread (by decide)]
    rfl
  obtain ⟨report, hreport, -⟩ := report_of_completed clock hvalid hdefault hdone
  exact ⟨report, hreport⟩

/-- No link resolves to the settings file, but once it is there one link stops the scan. A directory
that is not to be written is scanned and gets no file; where the path cannot be printed, the file is
written and no code returned. -/
theorem init_stops_scan :
    Command.FreshRoot throughDisk ["ROOT"] [("l", .link ".keyhunter.yml/x")] .full ∧
    (∀ q target, throughDisk.root.at? q = some (.link target) →
      throughDisk.canonical (Path.ofLocation q) = .ok ["ROOT", ".keyhunter.yml", "x"]) ∧
    (∃ report, Command.Succeeds throughDisk sampleSetting (.directory "/ROOT") {} .default report
      throughDisk) ∧
    (Command.run throughDisk sampleSetting ["init", "/ROOT"]).exit = .ok 0 ∧
    (∀ config report after,
      ¬ Command.Succeeds (Command.run throughDisk sampleSetting ["init", "/ROOT"]).disk
        sampleSetting (.directory "/ROOT") {} config report after) ∧
    ((∃ report, Command.Succeeds readOnlyDisk sampleSetting (.directory "/ROOT") {} .default report
        readOnlyDisk) ∧
      (Command.run readOnlyDisk sampleSetting ["init", "/ROOT"]).exit =
        .error (.path ⟨.denied, "/ROOT/.keyhunter.yml"⟩)) ∧
    (Command.run accentDisk { sampleSetting with console := .ascii }
      ["scan", "/ü", "--format", "json"]).exit = .ok 0 ∧
    (Command.run accentDisk { sampleSetting with console := .ascii } ["init", "/ü"]).exit =
      .error (.print "ordinal not in range(128)") := by
  have hinner : Node.WellFormed (.directory [("l", .link ".keyhunter.yml/x")] .full) :=
    .directory _ (by decide) (by decide) (by simp [Node.WellFormed.link])
  have hfresh : Command.FreshRoot throughDisk ["ROOT"] [("l", .link ".keyhunter.yml/x")] .full :=
    ⟨.directory _ (by decide) (by decide) (by simpa using hinner), rfl, rfl, rfl, by decide⟩
  have hvalid : (validateDirectory throughDisk "/ROOT").result = .ok "/ROOT" := rfl
  have hdefault : (Config.orDefault (some .default)).skips = .ok .default := Config.skips_default
  have hdone : (walk throughDisk .default "/ROOT").stopped = none := by
    have hroot : throughDisk.node "/ROOT" =
        .ok (.directory [("l", .link ".keyhunter.yml/x")] .full) := rfl
    rw [Walk.walk_of_ascending hroot rfl (by decide)]
    decide
  obtain ⟨report, hreport, -⟩ := report_of_completed sampleSetting.clock hvalid hdefault hdone
  have hdir := hfresh.located_of_scan hreport
  have hvacant : throughDisk.locate (Path.ofLocation (["ROOT"] ++ [Command.settingsName])) =
      .ok (.vacant ["ROOT"] Command.settingsName) := rfl
  have hread : Command.Order.read ["init", "/ROOT"] = .init (Path.ofLocation ["ROOT"]) false := by
    decide
  obtain ⟨hdisk, hexit⟩ := hfresh.run_init hdir hvacant sampleSetting hread
  obtain ⟨report₁, hreport₁⟩ :=
    exists_report_of_empty readOnlyDisk "/ROOT" sampleSetting.clock rfl rfl rfl
  obtain ⟨report₂, hreport₂⟩ :=
    exists_report_of_empty accentDisk "/ü" sampleSetting.clock rfl rfl rfl
  refine ⟨hfresh, fun q target hat => ?_, ⟨report, rfl, hreport, .nil _⟩, hexit rfl,
    fun config report' after h => ?_, ⟨⟨report₁, rfl, hreport₁, .nil _⟩, rfl⟩, ?_, ?_⟩
  · obtain ⟨c, rest, n, rfl, hmem, hn⟩ := Node.at?_directory_link hat
    simp only [List.mem_singleton, Prod.mk.injEq] at hmem
    obtain ⟨rfl, rfl⟩ := hmem
    obtain ⟨c, rest, n, rfl, hmem, hn⟩ := Node.at?_directory_link hn
    simp only [List.mem_singleton, Prod.mk.injEq] at hmem
    obtain ⟨rfl, rfl⟩ := hmem
    obtain ⟨rfl, -⟩ := Node.eq_link_of_at? hn rfl
    rfl
  · rw [hdisk] at h
    obtain ⟨entries', hdir'⟩ := hfresh.locate_withSettings hdir Command.templateBytes
    have hwf := hfresh.wellFormed_withSettings Command.templateBytes
    have hscan : (scanDirectory (Command.withTemplate throughDisk ["ROOT"])
        (Path.ofLocation ["ROOT"]) _ _).result = .ok report' := h.scanned
    obtain ⟨root, skips, hroot, -, hwalk⟩ := ok_scanDirectory hscan
    obtain rfl :=
      Except.ok.inj ((validateDirectory_ofLocation hwf hdir').symm.trans hroot)
    have hnode := Disk.node_eq_ok.2 ⟨_, hdir'⟩
    have hdone' := (folds_of_reportWalk hwalk).1
    rw [Walk.completed_iff_unobstructed hnode (Disk.wellFormed_node hwf hnode)] at hdone'
    have hopened : Walk.Opened skips (Path.ofLocation ["ROOT"]) (.directory entries' .full) [] :=
      Walk.opened_nil.2 (Walk.listable_nil.2 ⟨⟨entries', .full, rfl, rfl⟩, by decide⟩)
    refine hdone' ["l"] ⟨.notDirectory, "/ROOT/l"⟩
      ⟨[], "l", ".keyhunter.yml/x", rfl, hopened, ?_, rfl, ?_, by simp⟩
    · have hlink : (Command.withTemplate throughDisk ["ROOT"]).root.at? (["ROOT"] ++ ["l"]) =
          some (.link ".keyhunter.yml/x") := rfl
      rwa [Node.at?_append, Disk.at?_of_locateFrom (Disk.locate_ok hdir').2,
        Option.bind_some] at hlink
    · rfl
  · have hsucceeds : Command.Succeeds accentDisk { sampleSetting with console := .ascii }
        (.directory "/ü") { format := .json } .default report₂ accentDisk :=
      ⟨rfl, hreport₂, .nil _⟩
    have hscan : Command.Order.read ["scan", "/ü", "--format", "json"] =
        (Command.Subject.directory "/ü").order { format := .json } := by decide
    rw [hsucceeds.exit hscan (Command.prints_json rfl)]
    rfl
  · rfl

end LeakScan
