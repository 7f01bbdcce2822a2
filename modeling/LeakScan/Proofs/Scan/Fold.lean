import LeakScan.Proofs.Report.Tally
import LeakScan.Proofs.Scan.Root

namespace LeakScan

variable {disk : Disk} {given root : String} {config : Option Config} {clock : Clock}
  {report : Report} {skips : Config.Skips} {entries : List (String × Node)} {access : Access}

theorem node_of_validateDirectory (h : (validateDirectory disk given).result = .ok root) :
    ∃ entries access, disk.node root = .ok (.directory entries access) := by
  obtain ⟨place, entries, access, -, -, hnode⟩ := accepted_of_validateDirectory h
  exact ⟨entries, access, hnode⟩

theorem result_scanDirectory :
    (scanDirectory disk given config clock).result =
      (validateDirectory disk given).result.bind fun root =>
        match (Config.orDefault config).skips with
        | .error f => .error (.skips f)
        | .ok skips => reportWalk (Catalog.ofMode (Config.orDefault config).mode) root clock
            (walk disk skips root) := by
  unfold scanDirectory
  simp only [Noted.result_bind]
  congr 1
  funext root
  simp only [Noted.result_note, Except.bind]
  cases (Config.orDefault config).skips with
  | error f => rfl
  | ok skips =>
    simp only [Noted.result_bind, Noted.notes, Noted.lift, Noted.result_note, Noted.result_pure,
      Except.bind]
    split
    · next heq => exact heq.symm
    · next heq => exact heq.symm

theorem result_of_valid (hvalid : (validateDirectory disk given).result = .ok root)
    (hskips : (Config.orDefault config).skips = .ok skips) :
    (scanDirectory disk given config clock).result =
      reportWalk (Catalog.ofMode (Config.orDefault config).mode) root clock
        (walk disk skips root) := by
  rw [result_scanDirectory, hvalid]
  simp only [Except.bind, hskips]

theorem ok_scanDirectory (h : (scanDirectory disk given config clock).result = .ok report) :
    ∃ root skips, (validateDirectory disk given).result = .ok root ∧
      (Config.orDefault config).skips = .ok skips ∧
      reportWalk (Catalog.ofMode (Config.orDefault config).mode) root clock
        (walk disk skips root) = .ok report := by
  rw [result_scanDirectory] at h
  cases hroot : (validateDirectory disk given).result with
  | error e => simp [hroot, Except.bind] at h
  | ok root =>
    rw [hroot] at h
    simp only [Except.bind] at h
    split at h
    · simp at h
    · next skips hskips => exact ⟨root, skips, rfl, hskips, h⟩

/-- Settings that agree on the catalog and give the same walks give the same scan, with all that is
noted on the way. -/
theorem scanDirectory_congr {config' : Option Config}
    (hmode : (Config.orDefault config').mode = (Config.orDefault config).mode)
    (hwalks : ∀ root, (validateDirectory disk given).result = .ok root →
      (Config.orDefault config').skips.map (walk disk · root) =
        (Config.orDefault config).skips.map (walk disk · root)) :
    scanDirectory disk given config' clock = scanDirectory disk given config clock := by
  unfold scanDirectory
  simp only [hmode]
  refine Noted.bind_congr fun root hroot => ?_
  have hwalk := hwalks root hroot
  cases hskips : (Config.orDefault config).skips with
  | error f =>
    cases hskips' : (Config.orDefault config').skips with
    | error f' =>
      rw [hskips, hskips'] at hwalk
      rw [Except.error.inj hwalk]
    | ok skips' => simp [hskips, hskips', Except.map] at hwalk
  | ok skips =>
    cases hskips' : (Config.orDefault config').skips with
    | error f' => simp [hskips, hskips', Except.map] at hwalk
    | ok skips' =>
      rw [hskips, hskips'] at hwalk
      simp only [Except.ok.inj hwalk]

/-- A report holds what the documents of a walk give, kind by kind and in the order of the walk. -/
structure Report.Folds (report : Report) (catalog : Catalog) (w : Walk) : Prop where
  filesScanned : report.filesScanned = w.documents.length
  keys : report.keys = w.documents.flatMap fun d => (d.findings catalog).filterMap Finding.key?
  sensitiveFiles : report.sensitiveFiles = w.documents.flatMap fun d =>
    (d.findings catalog).filterMap Finding.sensitive?
  codeIssues : report.codeIssues = w.documents.flatMap fun d =>
    (d.findings catalog).filterMap Finding.code?
  totalIssues : report.totalIssues = (w.documents.map fun d => (d.findings catalog).length).sum
  errors : report.errors = w.visits.filterMap Visit.failure?

theorem folds_of_reportWalk {catalog : Catalog} {w : Walk}
    (h : reportWalk catalog root clock w = .ok report) :
    w.stopped = none ∧ report.target = .directory root ∧ report.Folds catalog w := by
  unfold reportWalk at h
  split at h
  · simp at h
  · next hdone =>
    obtain rfl := Except.ok.inj h
    rw [Tally.addVisits_eq]
    refine ⟨hdone, rfl, ?_, ?_, ?_, ?_, ?_, ?_⟩
    · exact Nat.zero_add _
    · exact List.nil_append _
    · exact List.nil_append _
    · exact List.nil_append _
    · rw [← Finding.length_flatMap_by_kind]
      rfl
    · exact List.nil_append _

theorem reportWalk_ok_iff {catalog : Catalog} {w : Walk} :
    (∃ report, reportWalk catalog root clock w = .ok report) ↔ w.stopped = none := by
  unfold reportWalk
  cases w.stopped with
  | none => simp
  | some e => simp

theorem report_of_completed (clock : Clock)
    (hvalid : (validateDirectory disk given).result = .ok root)
    (hskips : (Config.orDefault config).skips = .ok skips)
    (hdone : (walk disk skips root).stopped = none) :
    ∃ report, (scanDirectory disk given config clock).result = .ok report ∧
      report.target = .directory root ∧
      report.Folds (Catalog.ofMode (Config.orDefault config).mode) (walk disk skips root) := by
  obtain ⟨report, hreport⟩ := reportWalk_ok_iff.2 hdone
  rw [result_of_valid hvalid hskips]
  exact ⟨report, hreport, (folds_of_reportWalk hreport).2⟩

theorem reportWalk_error {catalog : Catalog} {w : Walk}
    {f : ScanFailure} (h : reportWalk catalog root clock w = .error f) :
    ∃ e, f = .path e ∧ w.stopped = some e := by
  unfold reportWalk at h
  cases hw : w.stopped with
  | none =>
    rw [hw] at h
    simp at h
  | some e =>
    rw [hw] at h
    exact ⟨e, (Except.error.inj h).symm, rfl⟩

/-- The failure that is reported of a place: of a directory that it was not listed, of anything else
that it was not read. -/
def failureAt (disk : Disk) (root : String) (top : Node) (p : Location) : ReadFailure :=
  match top.at? p with
  | some (.directory _ _) => ⟨relativeText p, (Walk.listingError root p).message⟩
  | _ => ⟨relativeText p, (documentAt disk (Walk.pathBelow root p) p).readError.getD ""⟩

@[simp] theorem file_failureAt (disk : Disk) (root : String) (top : Node) (p : Location) :
    (failureAt disk root top p).file = relativeText p := by
  unfold failureAt
  split <;> rfl

def Fails (disk : Disk) (skips : Config.Skips) (root : String) (top : Node) (p : Location) : Prop :=
  (Walk.Eligible disk skips root top p ∧
    (documentAt disk (Walk.pathBelow root p) p).readError.isSome = true) ∨
  Walk.Unlistable skips root top p

theorem Fails.at? {top : Node} {p : Location} (h : Fails disk skips root top p) :
    ∃ n, top.at? p = some n := by
  rcases h with ⟨h, -⟩ | h
  · exact h.at?
  · exact h.at?

section Root

variable (hroot : disk.node root = .ok (.directory entries access))
  (hwf : Node.WellFormed (.directory entries access))

include hroot hwf

theorem failure_document {p : Location} {path : String} {d : Document} {y : ReadFailure}
    (h : Walk.RootHappens disk skips root entries access p (.ok (.document path d)))
    (hy : (Visit.document path d).failure? = some y) :
    y = failureAt disk root (.directory entries access) p := by
  obtain ⟨⟨d', name, rfl, -, hkind, -⟩, -, rfl⟩ := (Walk.document_happens_iff hroot hwf).1 h
  obtain ⟨text, htext, rfl⟩ := Option.map_eq_some_iff.1 hy
  unfold failureAt
  rcases hkind with ⟨bytes, w, hat⟩ | ⟨target, hat, -⟩
  · rw [hat]
    simp [htext]
  · rw [hat]
    simp [htext]

theorem failure_unlisted {p : Location} {path relative : String} {e : PathError}
    (h : Walk.RootHappens disk skips root entries access p (.ok (.unlisted path relative e))) :
    (⟨relative, e.message⟩ : ReadFailure) =
      failureAt disk root (.directory entries access) p := by
  obtain ⟨⟨⟨inner, w, hat⟩, -⟩, -, rfl, rfl⟩ := (Walk.unlisted_happens_iff hroot hwf).1 h
  unfold failureAt
  rw [hat]

theorem failures_of_completed (hdone : (walk disk skips root).stopped = none) :
    ∃ places : List Location, places.Pairwise (· < ·) ∧
      (∀ p, p ∈ places ↔ Fails disk skips root (.directory entries access) p) ∧
      (walk disk skips root).visits.filterMap Visit.failure? =
        places.map (failureAt disk root (.directory entries access)) := by
  have hclear := (Walk.completed_iff_unobstructed hroot hwf).1 hdone
  obtain ⟨places, hsorted, hmem, heq⟩ :=
    (Walk.traces_walk hroot hwf).select hdone (g := Visit.failure?)
      (f := failureAt disk root (.directory entries access)) (by
        intro q v y hv hy
        cases v with
        | document path d => exact failure_document hroot hwf hv hy
        | unlisted path relative e =>
          rw [← failure_unlisted hroot hwf hv]
          exact (Option.some.inj hy).symm)
  refine ⟨places, hsorted, fun p => ?_, heq⟩
  rw [hmem, Fails, Walk.eligible_iff_document hroot hwf hclear]
  constructor
  · rintro ⟨v, hv, hsome⟩
    cases v with
    | document path d =>
      refine .inl ⟨⟨path, d, hv⟩, ?_⟩
      rw [← ((Walk.document_happens_iff hroot hwf).1 hv).2.2]
      simpa [Visit.failure?] using hsome
    | unlisted path relative e => exact .inr ((Walk.unlisted_happens_iff hroot hwf).1 hv).1
  · rintro (⟨⟨path, d, hv⟩, hsome⟩ | hp)
    · refine ⟨_, hv, ?_⟩
      rw [← ((Walk.document_happens_iff hroot hwf).1 hv).2.2] at hsome
      simpa [Visit.failure?] using hsome
    · exact ⟨.unlisted _ _ _, (Walk.unlisted_happens_iff hroot hwf).2 ⟨hp, rfl, rfl, rfl⟩, rfl⟩

end Root

/-- A report of a directory is the fold of what the documents of its walk give. Its failures are
those of the documents that were not read and of the directories that were not listed, each once, in
the order of the walk, and their files differ. -/
theorem report_folds_walk (disk : Disk) (hdisk : disk.root.WellFormed) (given : String)
    (config : Option Config) (clock : Clock) (report : Report)
    (h : (scanDirectory disk given config clock).result = .ok report) :
    ∃ root entries access skips,
      (validateDirectory disk given).result = .ok root ∧
      disk.node root = .ok (.directory entries access) ∧
      (Config.orDefault config).skips = .ok skips ∧
      (walk disk skips root).stopped = none ∧
      report.target = .directory root ∧
      report.Folds (Catalog.ofMode (Config.orDefault config).mode) (walk disk skips root) ∧
      (∃ places : List Location, places.Pairwise (· < ·) ∧
        (∀ p, p ∈ places ↔ Fails disk skips root (.directory entries access) p) ∧
        report.errors = places.map (failureAt disk root (.directory entries access))) ∧
      (report.errors.map ReadFailure.file).Nodup := by
  rw [result_scanDirectory] at h
  cases hvalid : (validateDirectory disk given).result with
  | error e =>
    rw [hvalid] at h
    simp [Except.bind] at h
  | ok root =>
    rw [hvalid] at h
    simp only [Except.bind] at h
    obtain ⟨entries, access, hroot⟩ := node_of_validateDirectory hvalid
    have hwf := Disk.wellFormed_node hdisk hroot
    cases hskips : (Config.orDefault config).skips with
    | error f =>
      rw [hskips] at h
      simp at h
    | ok skips =>
      rw [hskips] at h
      obtain ⟨hdone, htarget, hfolds⟩ := folds_of_reportWalk h
      obtain ⟨places, hsorted, hmem, hfailures⟩ := failures_of_completed hroot hwf hdone
      have herrors : report.errors =
          places.map (failureAt disk root (.directory entries access)) :=
        hfolds.errors.trans hfailures
      have hfiles : report.errors.map ReadFailure.file = places.map relativeText := by
        rw [herrors, List.map_map]
        exact List.map_congr_left fun p _ => file_failureAt _ _ _ p
      refine ⟨root, entries, access, skips, rfl, hroot, rfl, hdone, htarget, hfolds,
        ⟨places, hsorted, hmem, herrors⟩, ?_⟩
      rw [hfiles]
      exact Walk.nodup_relativeTexts hwf hsorted fun p hp => ((hmem p).1 hp).at?

def sampleClock : Clock := ⟨.ofEpochMicros 0, .ofEpochMicros 0⟩

theorem report_folds_walk_sample :
    Walk.sampleDisk.root.WellFormed ∧
    ∃ report, (scanDirectory Walk.sampleDisk "/r" none sampleClock).result = .ok report ∧
      report.filesScanned = 2 ∧ report.errors.map ReadFailure.file = ["a", "gone"] ∧
      (report.errors.map ReadFailure.file).Nodup := by
  have hvalid : (validateDirectory Walk.sampleDisk "/r").result = .ok "/r" := rfl
  have hdefault : (Config.orDefault none).skips = .ok .default := Config.skips_default
  have hscan : ∃ report, (scanDirectory Walk.sampleDisk "/r" none sampleClock).result =
      .ok report := by
    rw [result_of_valid hvalid hdefault, Walk.walk_sampleDisk]
    exact ⟨_, rfl⟩
  obtain ⟨report, h⟩ := hscan
  obtain ⟨root, entries, access, skips, hroot, -, hskips, -, -, hfolds, -, hnodup⟩ :=
    report_folds_walk Walk.sampleDisk Walk.wellFormed_sampleDisk "/r" none sampleClock report h
  obtain rfl := Except.ok.inj (hvalid.symm.trans hroot)
  obtain rfl := Except.ok.inj (hdefault.symm.trans hskips)
  have hfiles := hfolds.filesScanned
  have herrors := hfolds.errors
  rw [Walk.walk_sampleDisk] at hfiles herrors
  refine ⟨Walk.wellFormed_sampleDisk, report, h, hfiles, ?_, hnodup⟩
  rw [herrors]
  rfl

end LeakScan
