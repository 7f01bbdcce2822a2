import LeakScan.Proofs.Walk.Reading
import LeakScan.Proofs.Scan.Fold

namespace LeakScan

namespace Walk

variable {disk : Disk} {skips : Config.Skips} {root : String} {entries : List (String × Node)}
  {access : Access} {top : Node} {p : Location} {e : PathError}

/-- A link that stops a walk goes through too many links, through something that is no directory or
that must not be searched, or to too long a name. -/
theorem Obstructs.fault (h : Obstructs disk skips root top p e) (htop : top.WellFormed)
    (hroot : Path.hasNul root = false) :
    e.fault = .tooManyLinks ∨ e.fault = .notDirectory ∨ e.fault = .denied ∨
      e.fault = .nameTooLong := by
  obtain ⟨d, name, target, rfl, -, hat, hpath, hnode, hfault⟩ := h
  have hnames := htop.isName_of_at? hat
  have hname : Node.IsName name := hnames name (by simp)
  have hdir : Path.hasNul (pathBelow root d) = false := by
    apply hasNul_pathBelow hroot
    intro c hc
    exact hnames c (List.mem_append_left _ hc)
  have hnul : Path.hasNul e.path = false := by
    rw [hpath]
    exact Path.hasNul_listed hdir hname.no_nul
  rcases Disk.node_error hnul hnode with h | h | h | h | h
  · exact absurd h hfault
  · exact .inr (.inr (.inl h))
  · exact .inr (.inl h)
  · exact .inr (.inr (.inr h))
  · exact .inl h

end Walk

/-- An accepted directory is reported on exactly if no link in it stops the walk. Then every failure
is in the report and every eligible entry is met; else the first such link is the answer. -/
theorem report_iff_unobstructed (disk : Disk) (hdisk : disk.root.WellFormed) (given root : String)
    (hvalid : (validateDirectory disk given).result = .ok root) (source : Disk)
    (path : Option String) (place : String) (config : Config)
    (hconfig : (Config.load source path place).result = .ok config) (clock : Clock) :
    ∃ entries access skips,
      disk.node root = .ok (.directory entries access) ∧
      (Config.orDefault (some config)).skips = .ok skips ∧
      ((∃ report, (scanDirectory disk given (some config) clock).result = .ok report) ↔
        ∀ p e, ¬ Walk.Obstructs disk skips root (.directory entries access) p e) ∧
      (∀ f, (scanDirectory disk given (some config) clock).result = .error f →
        ∃ p e, f = .path e ∧ Walk.Obstructs disk skips root (.directory entries access) p e ∧
          (e.fault = .tooManyLinks ∨ e.fault = .notDirectory ∨ e.fault = .denied ∨
            e.fault = .nameTooLong) ∧
          ∀ q e', Walk.Obstructs disk skips root (.directory entries access) q e' → ¬ q < p) ∧
      ∀ report, (scanDirectory disk given (some config) clock).result = .ok report →
        (∀ p, Fails disk skips root (.directory entries access) p →
          failureAt disk root (.directory entries access) p ∈ report.errors) ∧
        (∀ p, Walk.Eligible disk skips root (.directory entries access) p →
          documentAt disk (Walk.pathBelow root p) p ∈ (walk disk skips root).documents) ∧
        report.filesScanned = (walk disk skips root).documents.length := by
  obtain ⟨entries, access, hroot⟩ := node_of_validateDirectory hvalid
  obtain ⟨dirs, extensions, hskips⟩ := Config.skips_orDefault hconfig
  have hwf := Disk.wellFormed_node hdisk hroot
  have hnul := Disk.hasNul_of_node hroot
  rw [result_of_valid hvalid hskips]
  refine ⟨entries, access, _, hroot, hskips, ?_, ?_, ?_⟩
  · rw [reportWalk_ok_iff, Walk.completed_iff_unobstructed hroot hwf]
  · intro f hf
    obtain ⟨e, rfl, hstop⟩ := reportWalk_error hf
    obtain ⟨p, hp, hfirst⟩ := (Walk.traces_walk hroot hwf).first_error hstop
    have hobstructs := (Walk.error_happens_iff hroot hwf).1 hp
    refine ⟨p, e, rfl, hobstructs, hobstructs.fault hwf hnul, fun q e' hq => ?_⟩
    exact hfirst q e' ((Walk.error_happens_iff hroot hwf).2 hq)
  · intro report hreport
    obtain ⟨hdone, -, hfolds⟩ := folds_of_reportWalk hreport
    obtain ⟨failed, -, hmemFailed, hfailures⟩ := failures_of_completed hroot hwf hdone
    obtain ⟨met, -, hmemMet, hdocs⟩ := Walk.documents_of_completed hroot hwf hdone
    refine ⟨fun p hp => ?_, fun p hp => ?_, hfolds.filesScanned⟩
    · rw [hfolds.errors, hfailures]
      exact List.mem_map_of_mem ((hmemFailed p).2 hp)
    · rw [hdocs]
      exact List.mem_map.2 ⟨p, (hmemMet p).2 hp, rfl⟩

theorem report_iff_unobstructed_sample :
    Walk.sampleDisk.root.WellFormed ∧
    (validateDirectory Walk.sampleDisk "/r").result = .ok "/r" ∧
    (Config.load Walk.sampleDisk none "/r").result = .ok .default ∧
    (∀ p e, ¬ Walk.Obstructs Walk.sampleDisk .default "/r" (.directory Walk.sampleEntries .full)
      p e) ∧
    ∃ report, (scanDirectory Walk.sampleDisk "/r" (some .default) sampleClock).result =
      .ok report := by
  have hvalid : (validateDirectory Walk.sampleDisk "/r").result = .ok "/r" := rfl
  have hload : (Config.load Walk.sampleDisk none "/r").result = .ok .default := rfl
  have hdefault : (Config.orDefault (some .default)).skips = .ok .default := Config.skips_default
  have hsample : Walk.sampleDisk.node "/r" = .ok (.directory Walk.sampleEntries .full) := rfl
  obtain ⟨entries, access, skips, hroot, hskips, hiff, -, -⟩ :=
    report_iff_unobstructed Walk.sampleDisk Walk.wellFormed_sampleDisk "/r" "/r" hvalid
      Walk.sampleDisk none "/r" .default hload sampleClock
  obtain ⟨rfl, rfl⟩ := Node.directory.inj (Except.ok.inj (hsample.symm.trans hroot))
  obtain rfl := Except.ok.inj (hdefault.symm.trans hskips)
  have hreport : ∃ report,
      (scanDirectory Walk.sampleDisk "/r" (some .default) sampleClock).result = .ok report := by
    rw [result_of_valid hvalid hdefault, Walk.walk_sampleDisk]
    exact ⟨_, rfl⟩
  exact ⟨Walk.wellFormed_sampleDisk, hvalid, hload, hiff.1 hreport, hreport⟩

def loopDisk : Disk :=
  ⟨.directory [("ROOT", .directory [("loop", .link "loop")] .full)] .full, ["ROOT"]⟩

/-- One link to itself, and there is no report. -/
theorem loop_ends_scan :
    loopDisk.root.WellFormed ∧ (validateDirectory loopDisk "/ROOT").result = .ok "/ROOT" ∧
    (Config.load loopDisk none "/ROOT").result = .ok .default ∧
    (scanDirectory loopDisk "/ROOT" (some .default) sampleClock).result =
      .error (.path ⟨.tooManyLinks, "/ROOT/loop"⟩) := by
  have hvalid : (validateDirectory loopDisk "/ROOT").result = .ok "/ROOT" := rfl
  have hdefault : (Config.orDefault (some .default)).skips = .ok .default := Config.skips_default
  have hroot : loopDisk.node "/ROOT" = .ok (.directory [("loop", .link "loop")] .full) := rfl
  have hwalk : walk loopDisk .default "/ROOT" = ⟨[], some ⟨.tooManyLinks, "/ROOT/loop"⟩⟩ := by
    rw [Walk.walk_of_ascending hroot rfl (by decide)]
    decide
  have hinner : Node.WellFormed (.directory [("loop", .link "loop")] .full) :=
    .directory _ (by decide) (by decide) (by simp [Node.WellFormed.link])
  refine ⟨.directory _ (by decide) (by decide) (by simpa using hinner), hvalid, rfl, ?_⟩
  rw [result_of_valid hvalid hdefault, hwalk]
  rfl

def closedDisk : Disk :=
  ⟨.directory [("ROOT", .directory [("to", .link "/shut/f")] .full),
    ("shut", .directory [("f", .file [] .full)] { search := false })] .full, ["ROOT"]⟩

example : walk closedDisk .default "/ROOT" = ⟨[], some ⟨.denied, "/ROOT/to"⟩⟩ := by
  have hroot : closedDisk.node "/ROOT" = .ok (.directory [("to", .link "/shut/f")] .full) := rfl
  rw [Walk.walk_of_ascending hroot rfl (by decide)]
  decide

end LeakScan
