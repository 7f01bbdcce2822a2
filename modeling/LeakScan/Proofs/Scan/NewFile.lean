import LeakScan.Proofs.Document.Findings
import LeakScan.Proofs.Walk.NewFile

namespace LeakScan

/-- The second list is the first one with `more` put in where a place belongs. What is listed names
the files in the order of their places. -/
def InsertedAt {κ : Type} (file : κ → String) (place : Location) (more l l' : List κ) : Prop :=
  ∃ before after, l = before ++ after ∧ l' = before ++ more ++ after ∧
    (∀ x ∈ before, Path.names (file x) < place) ∧ ∀ x ∈ after, place < Path.names (file x)

/-- The second report tells of one more document, and of nothing else that the first one does not
tell of. -/
structure Report.GainsDocument (catalog : Catalog) (place : Location) (d : Document)
    (r r' : Report) : Prop where
  target : r'.target = r.target
  startedAt : r'.startedAt = r.startedAt
  completedAt : r'.completedAt = r.completedAt
  filesScanned : r'.filesScanned = r.filesScanned + 1
  keys : InsertedAt KeyFinding.file place (d.keyFindings catalog) r.keys r'.keys
  sensitiveFiles : InsertedAt FileFinding.file place (d.fileFindings catalog) r.sensitiveFiles
    r'.sensitiveFiles
  codeIssues : InsertedAt CodeFinding.file place (d.codeFindings catalog) r.codeIssues r'.codeIssues
  errors : r'.errors = r.errors

theorem InsertedAt.length {κ : Type} {file : κ → String} {place : Location} {more l l' : List κ}
    (h : InsertedAt file place more l l') : l'.length = l.length + more.length := by
  obtain ⟨before, after, rfl, rfl, -, -⟩ := h
  simp only [List.length_append]
  omega

theorem insertedAt_flatMap {κ : Type} {file : κ → String} {g : Document → List κ}
    (hg : ∀ d, ∀ x ∈ g d, file x = d.path) {place : Location} {d : Document}
    {before after : List Document} (hbefore : ∀ d ∈ before, Path.names d.path < place)
    (hafter : ∀ d ∈ after, place < Path.names d.path) :
    InsertedAt file place (g d) ((before ++ after).flatMap g) ((before ++ d :: after).flatMap g) := by
  refine ⟨before.flatMap g, after.flatMap g, List.flatMap_append, ?_, fun x hx => ?_,
    fun x hx => ?_⟩
  · rw [List.flatMap_append, List.flatMap_cons, List.append_assoc]
  · obtain ⟨d, hd, hx⟩ := List.mem_flatMap.1 hx
    rw [hg d x hx]
    exact hbefore d hd
  · obtain ⟨d, hd, hx⟩ := List.mem_flatMap.1 hx
    rw [hg d x hx]
    exact hafter d hd

variable {disk disk' : Disk} {skips : Config.Skips} {root name : String} {catalog : Catalog}
  {entries entries' : List (String × Node)} {place : Location} {bytes : List UInt8}
  {clock : Clock} {report report' : Report}

theorem Report.GainsDocument.totalIssues {d : Document}
    (h : report.GainsDocument catalog place d report') :
    report'.totalIssues = report.totalIssues + (d.findings catalog).length := by
  have hkeys := h.keys.length
  have hfiles := h.sensitiveFiles.length
  have hcode := h.codeIssues.length
  simp only [Report.totalIssues, Document.findings, List.length_append, List.length_map]
  omega

theorem times_of_reportWalk (h : reportWalk catalog root clock w = .ok report) :
    report.startedAt = clock.start ∧ report.completedAt = clock.stop := by
  unfold reportWalk at h
  split at h
  · simp at h
  · obtain rfl := Except.ok.inj h
    rw [Tally.addVisits_eq]
    exact ⟨rfl, rfl⟩

/-- A walk that is not stopped is not stopped by a file that can be read and counts, and the report
gains what is found in it. -/
theorem gains_of_reportWalk
    (h : Walk.RootGains disk disk' root place name entries entries' access bytes)
    (hsuffix : skipsFile skips name = false)
    (hread : (documentAt disk' (Walk.pathBelow root [name]) [name]).readError = none)
    (hreport : reportWalk catalog root clock (walk disk skips root) = .ok report) :
    ∃ report', reportWalk catalog root clock (walk disk' skips root) = .ok report' ∧
      report.GainsDocument catalog [name] (documentAt disk' (Walk.pathBelow root [name]) [name])
        report' := by
  obtain ⟨hdone, htarget, hfolds⟩ := folds_of_reportWalk hreport
  obtain ⟨hstart, hstop⟩ := times_of_reportWalk hreport
  obtain ⟨report', hreport'⟩ : ∃ report',
      reportWalk catalog root clock (walk disk' skips root) = .ok report' :=
    reportWalk_ok_iff.2 (h.completed hdone)
  obtain ⟨-, htarget', hfolds'⟩ := folds_of_reportWalk hreport'
  obtain ⟨hstart', hstop'⟩ := times_of_reportWalk hreport'
  obtain ⟨before, after, hdocs, hdocs', hbefore, hafter⟩ := h.documents_inserted hdone hsuffix
  refine ⟨report', hreport', ?_, ?_, ?_, ?_, ?_, ?_, ?_, ?_⟩
  · rw [htarget, htarget']
  · rw [hstart, hstart']
  · rw [hstop, hstop']
  · rw [hfolds.filesScanned, hfolds'.filesScanned, hdocs, hdocs']
    simp only [List.length_append, List.length_cons]
    omega
  · rw [hfolds.keys, hfolds'.keys, hdocs, hdocs']
    simp only [Document.keys_findings]
    exact insertedAt_flatMap (fun _ _ => Document.file_of_keyFindings) hbefore hafter
  · rw [hfolds.sensitiveFiles, hfolds'.sensitiveFiles, hdocs, hdocs']
    simp only [Document.sensitive_findings]
    exact insertedAt_flatMap (fun _ _ => Document.file_of_fileFindings) hbefore hafter
  · rw [hfolds.codeIssues, hfolds'.codeIssues, hdocs, hdocs']
    simp only [Document.code_findings]
    exact insertedAt_flatMap (fun _ _ => Document.file_of_codeFindings) hbefore hafter
  · rw [hfolds.errors, hfolds'.errors]
    exact h.failures_eq hdone hread

end LeakScan
