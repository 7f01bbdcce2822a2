import LeakScan.Proofs.Config.Keys
import LeakScan.Proofs.Scan.Fold
import LeakScan.Proofs.Text.LetterCase
import LeakScan.Proofs.Walk.Pruned
import Mathlib.Data.List.Flatten

namespace LeakScan

/-- All that the first report lists is listed by the second one, in the same order. -/
structure Report.Within (part whole : Report) : Prop where
  target : part.target = whole.target
  filesScanned : part.filesScanned ≤ whole.filesScanned
  keys : part.keys.Sublist whole.keys
  sensitiveFiles : part.sensitiveFiles.Sublist whole.sensitiveFiles
  codeIssues : part.codeIssues.Sublist whole.codeIssues
  errors : part.errors.Sublist whole.errors

namespace Report

variable {part whole : Report} {catalog : Catalog} {w w' : Walk}

theorem Within.totalIssues_le (h : part.Within whole) : part.totalIssues ≤ whole.totalIssues := by
  have hkeys := h.keys.length_le
  have hfiles := h.sensitiveFiles.length_le
  have hcodes := h.codeIssues.length_le
  unfold totalIssues
  omega

theorem Within.risk_le (h : part.Within whole) : part.risk.rank ≤ whole.risk.rank :=
  Risk.rank_ofCount_le h.totalIssues_le

theorem Folds.within (h : whole.Folds catalog w) (h' : part.Folds catalog w')
    (htarget : part.target = whole.target) (hvisits : w'.visits.Sublist w.visits) :
    part.Within whole := by
  have hdocuments : w'.documents.Sublist w.documents := hvisits.filterMap _
  refine ⟨htarget, ?_, ?_, ?_, ?_, ?_⟩
  · rw [h.filesScanned, h'.filesScanned]
    exact hdocuments.length_le
  · rw [h.keys, h'.keys]
    exact hdocuments.flatMap _
  · rw [h.sensitiveFiles, h'.sensitiveFiles]
    exact hdocuments.flatMap _
  · rw [h.codeIssues, h'.codeIssues]
    exact hdocuments.flatMap _
  · rw [h.errors, h'.errors]
    exact hvisits.filterMap _

end Report

namespace Config

variable {c fewer more : Config} {dirs dirs' extensions extensions' : List String}

def withSkips (c : Config) (dirs extensions : List String) : Config :=
  (c.set "skip_dirs" (strings dirs)).set "skip_extensions" (strings extensions)

/-- Settings that are the same but for skip lists that leave out more. -/
structure SkipsMore (fewer more : Config) : Prop where
  others : ∀ key, key ≠ "skip_dirs" → key ≠ "skip_extensions" → more.get? key = fewer.get? key
  lists : ∃ skips skips', fewer.skips = .ok skips ∧ more.skips = .ok skips' ∧ skips.Within skips'

theorem SkipsMore.mode (h : fewer.SkipsMore more) : more.mode = fewer.mode := by
  unfold Config.mode
  rw [h.others "broad_patterns" (by decide) (by decide)]

theorem skipsMore_withSkips (hdirs : c.get? "skip_dirs" = some (strings dirs))
    (hextensions : c.get? "skip_extensions" = some (strings extensions)) (hsub : dirs ⊆ dirs')
    (hsub' : extensions.map Text.lower ⊆ extensions'.map Text.lower) :
    c.SkipsMore (c.withSkips dirs' extensions') := by
  refine ⟨fun key hd he => ?_, _, .ofStrings dirs' extensions',
    skips_of_strings hdirs hextensions, ?_, ⟨hsub, hsub'⟩⟩
  · rw [withSkips, get?_set_of_ne he, get?_set_of_ne hd]
  · refine skips_of_strings ?_ (get?_set_self _ _ _)
    rw [withSkips, get?_set_of_ne (by decide), get?_set_self]

theorem skipsOf_extensions (dirs : Option Value) :
    (∃ f, ∀ extensions, skipsOf dirs (some (strings extensions)) = .error f) ∨
      ∃ names, ∀ extensions,
        skipsOf dirs (some (strings extensions)) = .ok (.ofStrings names extensions) := by
  have hextensions (extensions : List String) :
      members? (orStrings (some (strings extensions)) defaultSkipExtensions) =
        some (extensions.map .str) := rfl
  simp only [skipsOf, hextensions, extensionsOf_strings, Skips.ofStrings]
  cases members? (orStrings dirs defaultSkipDirs) with
  | none => exact .inl ⟨_, fun _ => rfl⟩
  | some items =>
    simp only
    cases namesOf items with
    | error f => exact .inl ⟨f, fun _ => rfl⟩
    | ok names => exact .inr ⟨names, fun _ => rfl⟩

theorem lower_subset (h : extensions.map String.toLower ⊆ extensions'.map String.toLower) :
    extensions.map Text.lower ⊆ extensions'.map Text.lower := by
  have hlower (ss : List String) : (ss.map String.toLower).map Text.lower = ss.map Text.lower := by
    rw [List.map_map]
    exact List.map_congr_left fun s _ => Text.lower_toLower s
  rw [← hlower extensions, ← hlower extensions']
  exact List.map_subset _ h

end Config

section Scans

variable {disk : Disk} (hdisk : disk.root.WellFormed) {given : String}
  {config config' : Option Config} {c : Config} {clock clock' : Clock} {report : Report}
  {extensions extensions' : List String}

include hdisk

theorem scanDirectory_within (h : (Config.orDefault config).SkipsMore (Config.orDefault config'))
    (hreport : (scanDirectory disk given config clock).result = .ok report) :
    ∃ report', (scanDirectory disk given config' clock').result = .ok report' ∧
      report'.Within report := by
  obtain ⟨root, skips, hvalid, hskips, hwalk⟩ := ok_scanDirectory hreport
  obtain ⟨entries, access, hroot⟩ := node_of_validateDirectory hvalid
  obtain ⟨hdone, htarget, hfolds⟩ := folds_of_reportWalk hwalk
  obtain ⟨fewer, more, hfewer, hmore, hwithin⟩ := h.lists
  obtain rfl : fewer = skips := Except.ok.inj (hfewer.symm.trans hskips)
  obtain ⟨hdone', hvisits⟩ :=
    Walk.walk_within hwithin hroot (Disk.wellFormed_node hdisk hroot) hdone
  -- The second walk comes to its end too, so it gives a report.
  obtain ⟨report', hreport', htarget', hfolds'⟩ := report_of_completed clock' hvalid hmore hdone'
  rw [h.mode] at hfolds'
  exact ⟨report', hreport', hfolds.within hfolds' (htarget'.trans htarget.symm) hvisits⟩

theorem scanDirectory_extensions
    (hextensions : c.get? "skip_extensions" = some (Config.strings extensions))
    (hsub : extensions.map String.toLower ⊆ extensions'.map String.toLower)
    (hsub' : extensions'.map String.toLower ⊆ extensions.map String.toLower) :
    scanDirectory disk given (some (c.set "skip_extensions" (Config.strings extensions'))) clock =
      scanDirectory disk given (some c) clock := by
  have hset := Config.get?_set_self c "skip_extensions" (Config.strings extensions')
  have horDefault := Config.orDefault_of_get? hset
  have horDefault' := Config.orDefault_of_get? hextensions
  refine scanDirectory_congr ?_ fun root hvalid => ?_
  · rw [horDefault, horDefault', Config.mode, Config.mode, Config.get?_set_of_ne (by decide)]
  · obtain ⟨entries, access, hroot⟩ := node_of_validateDirectory hvalid
    rw [horDefault, horDefault', Config.skips, Config.skips, hset, hextensions,
      Config.get?_set_of_ne (by decide)]
    rcases Config.skipsOf_extensions (c.get? "skip_dirs") with ⟨f, hf⟩ | ⟨names, hnames⟩
    · rw [hf, hf]
    · rw [hnames, hnames]
      have hwithin : (Config.Skips.ofStrings names extensions).Within
          (.ofStrings names extensions') := ⟨List.Subset.refl _, Config.lower_subset hsub⟩
      have hwithin' : (Config.Skips.ofStrings names extensions').Within
          (.ofStrings names extensions) := ⟨List.Subset.refl _, Config.lower_subset hsub'⟩
      exact congrArg Except.ok
        (Walk.walk_eq_of_within hwithin hroot (Disk.wellFormed_node hdisk hroot) hwithin')

end Scans

/-- A scan that leaves out more gives a report when one that leaves out less gives one, and its
report holds a part of the other's, in the same order. Skip lists of texts leave out more when they
hold more, whatever the case of extensions. How often and where an extension stands, and the case
of its letters A to Z, is all the same. -/
theorem skip_lists_monotone (disk : Disk) (hdisk : disk.root.WellFormed) (given : String) :
    (∀ (config config' : Option Config) (clock clock' : Clock) (report : Report),
      (Config.orDefault config).SkipsMore (Config.orDefault config') →
      (scanDirectory disk given config clock).result = .ok report →
      ∃ report', (scanDirectory disk given config' clock').result = .ok report' ∧
        report'.Within report ∧ report'.totalIssues ≤ report.totalIssues ∧
        report'.risk.rank ≤ report.risk.rank) ∧
    (∀ (c : Config) (dirs dirs' extensions extensions' : List String),
      c.get? "skip_dirs" = some (Config.strings dirs) →
      c.get? "skip_extensions" = some (Config.strings extensions) →
      dirs ⊆ dirs' → extensions.map Text.lower ⊆ extensions'.map Text.lower →
      c.SkipsMore (c.withSkips dirs' extensions')) ∧
    ∀ (c : Config) (extensions extensions' : List String) (clock : Clock),
      c.get? "skip_extensions" = some (Config.strings extensions) →
      extensions.map String.toLower ⊆ extensions'.map String.toLower →
      extensions'.map String.toLower ⊆ extensions.map String.toLower →
      scanDirectory disk given (some (c.set "skip_extensions" (Config.strings extensions'))) clock =
        scanDirectory disk given (some c) clock := by
  refine ⟨fun config config' clock clock' report h hreport => ?_, ?_, ?_⟩
  · obtain ⟨report', hreport', hwithin⟩ := scanDirectory_within hdisk h hreport
    exact ⟨report', hreport', hwithin, hwithin.totalIssues_le, hwithin.risk_le⟩
  · exact fun c dirs dirs' extensions extensions' => Config.skipsMore_withSkips
  · exact fun c extensions extensions' clock => scanDirectory_extensions hdisk

/-- The default settings with a directory and an extension in capitals left out as well. -/
def sampleFewer : Config :=
  .withSkips .default ("a" :: Config.defaultSkipDirs) (".TXT" :: Config.defaultSkipExtensions)

theorem walk_sampleFewer :
    walk Walk.sampleDisk
        (.ofStrings ("a" :: Config.defaultSkipDirs) (".TXT" :: Config.defaultSkipExtensions)) "/r" =
      ⟨[.document "/r/gone" (documentAt Walk.sampleDisk "/r/gone" ["gone"])], none⟩ := by
  have hroot : Walk.sampleDisk.node "/r" = .ok (.directory Walk.sampleEntries .full) := rfl
  rw [Walk.walk_of_ascending hroot rfl (by decide)]
  decide

theorem skip_lists_monotone_sample :
    Walk.sampleDisk.root.WellFormed ∧ Config.default.SkipsMore sampleFewer ∧
    (∃ report report',
      (scanDirectory Walk.sampleDisk "/r" none sampleClock).result = .ok report ∧
      (scanDirectory Walk.sampleDisk "/r" (some sampleFewer) sampleClock).result = .ok report' ∧
      report'.Within report ∧ report.filesScanned = 2 ∧ report'.filesScanned = 1 ∧
      report.errors.map ReadFailure.file = ["a", "gone"] ∧
      report'.errors.map ReadFailure.file = ["gone"]) ∧
    scanDirectory Walk.sampleDisk "/r" (some (Config.default.set "skip_extensions"
        (Config.strings (".ZIP" :: Config.defaultSkipExtensions)))) sampleClock =
      scanDirectory Walk.sampleDisk "/r" (some .default) sampleClock := by
  obtain ⟨hmonotone, hlists, hcase⟩ :=
    skip_lists_monotone Walk.sampleDisk Walk.wellFormed_sampleDisk "/r"
  have hmore : Config.default.SkipsMore sampleFewer :=
    hlists .default Config.defaultSkipDirs _ Config.defaultSkipExtensions _ rfl rfl
      (List.subset_cons_self _ _) (List.map_subset _ (List.subset_cons_self _ _))
  have hvalid : (validateDirectory Walk.sampleDisk "/r").result = .ok "/r" := rfl
  have hdefault : (Config.orDefault none).skips = .ok .default := Config.skips_default
  have hskips : (Config.orDefault (some sampleFewer)).skips = .ok (.ofStrings
      ("a" :: Config.defaultSkipDirs) (".TXT" :: Config.defaultSkipExtensions)) :=
    Config.skipsOf_strings _ _
  obtain ⟨report, hreport, -, hfolds⟩ :=
    report_of_completed sampleClock hvalid hdefault (by rw [Walk.walk_sampleDisk])
  obtain ⟨part, hpart, -, hfolds'⟩ :=
    report_of_completed sampleClock hvalid hskips (by rw [walk_sampleFewer])
  obtain ⟨report', hreport', hwithin, -, -⟩ :=
    hmonotone none (some sampleFewer) sampleClock sampleClock report hmore hreport
  obtain rfl : part = report' := Except.ok.inj (hpart.symm.trans hreport')
  rw [Walk.walk_sampleDisk] at hfolds
  rw [walk_sampleFewer] at hfolds'
  refine ⟨Walk.wellFormed_sampleDisk, hmore, ⟨report, part, hreport, hpart, hwithin,
    hfolds.filesScanned, hfolds'.filesScanned, ?_, ?_⟩, ?_⟩
  · rw [hfolds.errors]
    rfl
  · rw [hfolds'.errors]
    rfl
  · have hzip : ".ZIP".toLower = ".zip".toLower := by
      rw [← String.toList_inj, Text.toList_toLower, Text.toList_toLower]
      decide
    refine hcase .default Config.defaultSkipExtensions _ sampleClock rfl
      (List.map_subset _ (List.subset_cons_self _ _)) ?_
    rw [List.map_cons, hzip]
    exact List.cons_subset.2 ⟨List.mem_map_of_mem (by decide), List.Subset.refl _⟩

end LeakScan
