import LeakScan.Proofs.Disk.Put
import LeakScan.Proofs.Scan.SourceLines
import Mathlib.Data.List.Sort

namespace LeakScan

theorem sum_le_of_eq_elsewhere {α : Type} {l : List α} {a b : α → Nat} {k : Nat} (x : α)
    (hnodup : l.Nodup) (helse : ∀ y ∈ l, y ≠ x → a y = b y) (hx : a x ≤ b x + k) :
    (l.map a).sum ≤ (l.map b).sum + k := by
  induction l with
  | nil => simp
  | cons y l ih =>
    rw [List.nodup_cons] at hnodup
    rw [List.forall_mem_cons] at helse
    rw [List.map_cons, List.map_cons, List.sum_cons, List.sum_cons]
    by_cases hy : y = x
    · subst hy
      have hrest : l.map a = l.map b := List.map_congr_left fun z hz =>
        helse.2 z hz fun heq => hnodup.1 (heq ▸ hz)
      rw [hrest]
      omega
    · have hrest := ih hnodup.2 helse.2
      have hhere := helse.1 hy
      omega

namespace Document

variable {d d' : Document} {m : Catalog.Mode}

theorem length_findings_le (hpath : d.path = d'.path) (hd : d.origin = .file)
    (hd' : d'.origin = .file) :
    (d.findings (.ofMode m)).length ≤ (d'.findings (.ofMode m)).length + 10 := by
  have hkeys : (d.keyFindings (.ofMode m)).length ≤ 7 := by
    unfold keyFindings
    split
    · simp
    · refine (List.length_filterMap_le _ _).trans ?_
      cases m <;> decide
  have hcodes : (d.codeFindings (.ofMode m)).length ≤ 3 := by
    unfold codeFindings
    split
    · split
      · simp
      · refine (List.length_filterMap_le _ _).trans ?_
        cases m <;> decide
    · simp
  have hfiles : (d.fileFindings (.ofMode m)).length = (d'.fileFindings (.ofMode m)).length :=
    congrArg List.length (fileFindings_of_file hpath hd hd')
  simp only [findings, List.length_append, List.length_map]
  omega

end Document

@[simp] theorem origin_documentAt (disk : Disk) (path : String) (q : Location) :
    (documentAt disk path q).origin = .file := by
  unfold documentAt
  split
  · rfl
  · split <;> rfl

namespace Walk

/-- No link below the root of a scan leads to the file at a place. -/
def Unlinked (disk : Disk) (root : String) (top : Node) (f : Location) : Prop :=
  ∀ q target n, top.at? q = some (.link target) → disk.locate (pathBelow root q) ≠ .ok (.node f n)

variable {disk : Disk} {skips : Config.Skips} {root : String} {top top' : Node} {f place p : Location}
  {bytes bytes' : List UInt8} {w : Access}

section Written

variable (hdisk : disk.root.WellFormed) (hf : disk.root.at? f = some (.file bytes w))
  (hroot : disk.locate root = .ok (.node place top)) (habsolute : Path.isAbsolute root = true)
  (hlinks : Unlinked disk root top f)
  (hroot' : (disk.withBytes f bytes' w).node root = .ok top')

include hdisk hf

theorem sameShape_top (hroot : disk.node root = .ok top)
    (hroot' : (disk.withBytes f bytes' w).node root = .ok top') : top.SameShape top' := by
  have halike : disk.Alike _ (disk.withBytes f bytes' w) := Disk.alike_withBytes hdisk hf
  rcases (halike.node hdisk root).eq_or with ⟨e, hn, -⟩ | ⟨n, m, hn, hm, hnm⟩
  · rw [hroot] at hn
    cases hn
  · rw [hroot] at hn
    rw [hroot'] at hm
    cases hn
    cases hm
    exact hnm

include hroot hroot'

theorem eligible_withBytes :
    Eligible (disk.withBytes f bytes' w) skips root top' p ↔ Eligible disk skips root top p := by
  have hnode := Disk.node_eq_ok.2 ⟨place, hroot⟩
  have htop := Disk.wellFormed_node hdisk hnode
  have halike : disk.Alike _ (disk.withBytes f bytes' w) := Disk.alike_withBytes hdisk hf
  have hshape := sameShape_top hdisk hf hnode hroot'
  exact ⟨fun h => h.alike halike.symm (halike.root.wellFormed hdisk) hshape.symm
    (hshape.wellFormed htop), fun h => h.alike halike hdisk hshape htop⟩

include habsolute hlinks

omit hroot' in
theorem documentAt_withBytes (hp : Eligible disk skips root top p) (hne : place ++ p ≠ f) :
    documentAt (disk.withBytes f bytes' w) (pathBelow root p) p =
      documentAt disk (pathBelow root p) p := by
  have htop := Disk.wellFormed_node hdisk (Disk.node_eq_ok.2 ⟨place, hroot⟩)
  have hother (n : Node) : disk.locate (pathBelow root p) ≠ .ok (.node f n) := by
    obtain ⟨d, name, rfl, -, ⟨b, v, hat⟩ | ⟨target, hat, -⟩, -⟩ := hp
    · rcases locate_pathBelow hroot habsolute htop hat (by simp) with h | h
      · rw [h]
        intro heq
        cases heq
        exact hne rfl
      · obtain ⟨e, he, -⟩ := Disk.hides_iff.1 h
        rw [he]
        simp
    · exact hlinks _ target n hat
  unfold documentAt
  rw [Disk.readAt_withBytes hdisk hf hother]

theorem fails_withBytes (hne : place ++ p ≠ f) :
    Fails (disk.withBytes f bytes' w) skips root top' p ↔ Fails disk skips root top p := by
  have hnode := Disk.node_eq_ok.2 ⟨place, hroot⟩
  have htop := Disk.wellFormed_node hdisk hnode
  have hshape := sameShape_top hdisk hf hnode hroot'
  have hunlisted : Unlistable skips root top' p ↔ Unlistable skips root top p :=
    ⟨fun h => h.alike hshape.symm (hshape.wellFormed htop), fun h => h.alike hshape htop⟩
  unfold Fails
  rw [hunlisted, eligible_withBytes hdisk hf hroot hroot']
  refine or_congr (and_congr_right fun hp => ?_) Iff.rfl
  rw [documentAt_withBytes hdisk hf hroot habsolute hlinks hp hne]

theorem failureAt_withBytes (hp : Fails disk skips root top p) (hne : place ++ p ≠ f) :
    failureAt (disk.withBytes f bytes' w) root top' p = failureAt disk root top p := by
  have hnode := Disk.node_eq_ok.2 ⟨place, hroot⟩
  have htop := Disk.wellFormed_node hdisk hnode
  have hshape := sameShape_top hdisk hf hnode hroot'
  unfold failureAt
  rcases hp with ⟨hp, -⟩ | ⟨⟨inner, v, hat⟩, -⟩
  · rw [documentAt_withBytes hdisk hf hroot habsolute hlinks hp hne]
    obtain ⟨n, hat⟩ := hp.at?
    rcases hshape.at? htop p with ⟨hn, -⟩ | ⟨k, k', hk, hk', hkk⟩
    · rw [hat] at hn
      cases hn
    · rw [hk, hk']
      cases hkk <;> rfl
  · obtain ⟨inner', hat'⟩ := at?_directory_alike hshape htop hat
    rw [hat, hat']

end Written

section Walks

variable {entries entries' : List (String × Node)} {access access' : Access}
  (hdisk : disk.root.WellFormed) (hf : disk.root.at? f = some (.file bytes w))
  (hroot : disk.locate root = .ok (.node place (.directory entries access)))
  (habsolute : Path.isAbsolute root = true)
  (hlinks : Unlinked disk root (.directory entries access) f)
  (hroot' : (disk.withBytes f bytes' w).node root = .ok (.directory entries' access'))
  (hdone : (walk disk skips root).stopped = none)
  (hdone' : (walk (disk.withBytes f bytes' w) skips root).stopped = none)

include hdisk hf hroot hroot' hdone hdone'

theorem places_withBytes :
    ∃ places : List Location, places.Pairwise (· < ·) ∧
      (∀ p ∈ places, Eligible disk skips root (.directory entries access) p) ∧
      (walk disk skips root).documents =
        places.map (fun p => documentAt disk (pathBelow root p) p) ∧
      (walk (disk.withBytes f bytes' w) skips root).documents =
        places.map fun p => documentAt (disk.withBytes f bytes' w) (pathBelow root p) p := by
  have hnode := Disk.node_eq_ok.2 ⟨place, hroot⟩
  have hwf := Disk.wellFormed_node hdisk hnode
  have hwf' := (sameShape_top hdisk hf hnode hroot').wellFormed hwf
  obtain ⟨places, hsorted, hmem, hdocs⟩ := documents_of_completed hnode hwf hdone
  obtain ⟨places', hsorted', hmem', hdocs'⟩ := documents_of_completed hroot' hwf' hdone'
  obtain rfl : places = places' := hsorted.eq_of_mem_iff hsorted' fun p => by
    rw [hmem, hmem', eligible_withBytes hdisk hf hroot hroot']
  exact ⟨places, hsorted, fun p hp => (hmem p).1 hp, hdocs, hdocs'⟩

theorem length_withBytes : (walk (disk.withBytes f bytes' w) skips root).documents.length =
    (walk disk skips root).documents.length := by
  obtain ⟨places, -, -, hdocs, hdocs'⟩ :=
    places_withBytes hdisk hf hroot hroot' hdone hdone'
  rw [hdocs, hdocs', List.length_map, List.length_map]

theorem sensitive_withBytes (catalog : Catalog) :
    (walk (disk.withBytes f bytes' w) skips root).documents.flatMap (·.fileFindings catalog) =
      (walk disk skips root).documents.flatMap (·.fileFindings catalog) := by
  obtain ⟨places, -, -, hdocs, hdocs'⟩ :=
    places_withBytes hdisk hf hroot hroot' hdone hdone'
  rw [hdocs, hdocs', List.flatMap_map, List.flatMap_map]
  exact List.flatMap_congr fun p _ => Document.fileFindings_of_file (by simp) (by simp) (by simp)

include habsolute hlinks

theorem filter_withBytes {κ : Type} {g : Document → List κ} {file : κ → String}
    (hg : ∀ d, ∀ k ∈ g d, file k = d.path) {keep : String → Bool}
    (hkeep : ∀ p, f = place ++ p → keep (relativeText p) = false) :
    ((walk (disk.withBytes f bytes' w) skips root).documents.flatMap g).filter
        (fun k => keep (file k)) =
      ((walk disk skips root).documents.flatMap g).filter fun k => keep (file k) := by
  obtain ⟨places, -, heligible, hdocs, hdocs'⟩ :=
    places_withBytes hdisk hf hroot hroot' hdone hdone'
  rw [hdocs, hdocs', List.flatMap_map, List.flatMap_map, List.filter_flatMap, List.filter_flatMap]
  refine List.flatMap_congr fun p hp => ?_
  by_cases hne : place ++ p = f
  · have hnone (d : Document) (hd : d.path = relativeText p) :
        (g d).filter (fun k => keep (file k)) = [] := by
      refine List.filter_eq_nil_iff.2 fun k hk => ?_
      rw [hg d k hk, hd, hkeep p hne.symm]
      simp
    rw [hnone _ (path_documentAt _ _ _), hnone _ (path_documentAt _ _ _)]
  · rw [documentAt_withBytes hdisk hf hroot habsolute hlinks (heligible p hp) hne]

theorem failures_withBytes {keep : String → Bool}
    (hkeep : ∀ p, f = place ++ p → keep (relativeText p) = false) :
    ((walk (disk.withBytes f bytes' w) skips root).visits.filterMap Visit.failure?).filter
        (fun e => keep e.file) =
      ((walk disk skips root).visits.filterMap Visit.failure?).filter fun e => keep e.file := by
  have hnode := Disk.node_eq_ok.2 ⟨place, hroot⟩
  have hwf := Disk.wellFormed_node hdisk hnode
  have hwf' := (sameShape_top hdisk hf hnode hroot').wellFormed hwf
  obtain ⟨places, hsorted, hmem, hfailures⟩ := failures_of_completed hnode hwf hdone
  obtain ⟨places', hsorted', hmem', hfailures'⟩ := failures_of_completed hroot' hwf' hdone'
  have hother {p : Location} (hp : keep (relativeText p) = true) : place ++ p ≠ f := by
    intro heq
    rw [hkeep p heq.symm] at hp
    cases hp
  have hsame : places'.filter (fun p => keep (relativeText p)) =
      places.filter fun p => keep (relativeText p) := by
    refine (hsorted'.sublist List.filter_sublist).eq_of_mem_iff
      (hsorted.sublist List.filter_sublist) fun p => ?_
    rw [List.mem_filter, List.mem_filter, hmem, hmem']
    refine and_congr_left fun hp => ?_
    exact fails_withBytes hdisk hf hroot habsolute hlinks hroot' (hother hp)
  rw [hfailures, hfailures', List.filter_map, List.filter_map]
  simp only [Function.comp_def, file_failureAt]
  rw [hsame]
  refine List.map_congr_left fun p hp => ?_
  obtain ⟨hp, hkept⟩ := List.mem_filter.1 hp
  exact failureAt_withBytes hdisk hf hroot habsolute hlinks hroot' ((hmem p).1 hp) (hother hkept)

theorem issues_withBytes (m : Catalog.Mode) :
    ((walk disk skips root).documents.map fun d => (d.findings (.ofMode m)).length).sum ≤
        ((walk (disk.withBytes f bytes' w) skips root).documents.map
          fun d => (d.findings (.ofMode m)).length).sum + 10 ∧
      ((walk (disk.withBytes f bytes' w) skips root).documents.map
          fun d => (d.findings (.ofMode m)).length).sum ≤
        ((walk disk skips root).documents.map fun d => (d.findings (.ofMode m)).length).sum + 10 := by
  obtain ⟨places, hsorted, heligible, hdocs, hdocs'⟩ :=
    places_withBytes hdisk hf hroot hroot' hdone hdone'
  have hnodup := hsorted.nodup
  -- Only one place below the root can be that of the file.
  have helse (p : Location) (hp : p ∈ places) (hne : p ≠ f.drop place.length) :
      documentAt (disk.withBytes f bytes' w) (pathBelow root p) p =
        documentAt disk (pathBelow root p) p := by
    refine documentAt_withBytes hdisk hf hroot habsolute hlinks (heligible p hp) ?_
    rintro rfl
    exact hne (by simp)
  rw [hdocs, hdocs', List.map_map, List.map_map]
  refine ⟨sum_le_of_eq_elsewhere _ hnodup (fun p hp (hne : p ≠ f.drop place.length) => ?_) ?_,
    sum_le_of_eq_elsewhere _ hnodup (fun p hp (hne : p ≠ f.drop place.length) => ?_) ?_⟩
  · simp only [Function.comp_apply, helse p hp hne]
  · exact Document.length_findings_le (by simp) (by simp) (by simp)
  · simp only [Function.comp_apply, helse p hp hne]
  · exact Document.length_findings_le (by simp) (by simp) (by simp)

end Walks

end Walk

/-- Writing over one file, to which no link below the root leads, affects no more than what is
reported of this file. As many files are counted, the sensitive ones are the same, and so are the
keys, the risky code and the failures of all other files, in the same order. Whatever the file holds,
readable or not, the number of issues changes by ten at most. -/
theorem one_file_affects_itself (disk : Disk) (hdisk : disk.root.WellFormed) (f : Location)
    (bytes bytes' : List UInt8) (w : Access) (hf : disk.root.at? f = some (.file bytes w))
    (given : String) (config : Option Config) (clock clock' : Clock)
    (hlinks : ∀ root top, (validateDirectory disk given).result = .ok root →
      disk.node root = .ok top → Walk.Unlinked disk root top f)
    (report report' : Report)
    (h : (scanDirectory disk given config clock).result = .ok report)
    (h' : (scanDirectory (disk.withBytes f bytes' w) given config clock').result = .ok report') :
    ∃ root place top, (validateDirectory disk given).result = .ok root ∧
      disk.locate root = .ok (.node place top) ∧
      report'.filesScanned = report.filesScanned ∧
      report'.sensitiveFiles = report.sensitiveFiles ∧
      (∀ keep : String → Bool, (∀ p, f = place ++ p → keep (relativeText p) = false) →
        report'.keys.filter (fun k => keep k.file) = report.keys.filter (fun k => keep k.file) ∧
        report'.codeIssues.filter (fun c => keep c.file) =
          report.codeIssues.filter (fun c => keep c.file) ∧
        report'.errors.filter (fun e => keep e.file) =
          report.errors.filter (fun e => keep e.file)) ∧
      report.totalIssues ≤ report'.totalIssues + 10 ∧
      report'.totalIssues ≤ report.totalIssues + 10 := by
  have halike : disk.Alike _ (disk.withBytes f bytes' w) := Disk.alike_withBytes hdisk hf
  obtain ⟨root, skips, hvalid, hskips, hreport⟩ := ok_scanDirectory h
  obtain ⟨root', skips', hvalid', hskips', hreport'⟩ := ok_scanDirectory h'
  rw [validateDirectory_alike halike hdisk] at hvalid'
  obtain rfl := Except.ok.inj (hvalid.symm.trans hvalid')
  obtain rfl := Except.ok.inj (hskips.symm.trans hskips')
  obtain ⟨entries, access, hnode⟩ := node_of_validateDirectory hvalid
  obtain ⟨place, hroot⟩ := Disk.locate_of_node hnode
  have habsolute := isAbsolute_of_validateDirectory hvalid
  have hnolinks := hlinks root _ hvalid hnode
  obtain ⟨entries', access', hroot'⟩ : ∃ entries' access',
      (disk.withBytes f bytes' w).node root = .ok (.directory entries' access') :=
    node_of_validateDirectory ((validateDirectory_alike halike hdisk).symm ▸ hvalid)
  obtain ⟨hdone, -, hfolds⟩ := folds_of_reportWalk hreport
  obtain ⟨hdone', -, hfolds'⟩ := folds_of_reportWalk hreport'
  refine ⟨root, place, _, hvalid, hroot, ?_, ?_, fun keep hkeep => ⟨?_, ?_, ?_⟩, ?_⟩
  · rw [hfolds.filesScanned, hfolds'.filesScanned]
    exact Walk.length_withBytes hdisk hf hroot hroot' hdone hdone'
  · rw [hfolds.sensitiveFiles, hfolds'.sensitiveFiles]
    simp only [Document.sensitive_findings]
    exact Walk.sensitive_withBytes hdisk hf hroot hroot' hdone hdone' _
  · rw [hfolds.keys, hfolds'.keys]
    simp only [Document.keys_findings]
    exact Walk.filter_withBytes hdisk hf hroot habsolute hnolinks hroot' hdone hdone'
      (fun _ _ hk => Document.file_of_keyFindings hk) hkeep
  · rw [hfolds.codeIssues, hfolds'.codeIssues]
    simp only [Document.code_findings]
    exact Walk.filter_withBytes hdisk hf hroot habsolute hnolinks hroot' hdone hdone'
      (fun _ _ hc => Document.file_of_codeFindings hc) hkeep
  · rw [hfolds.errors, hfolds'.errors]
    exact Walk.failures_withBytes hdisk hf hroot habsolute hnolinks hroot' hdone hdone' hkeep
  · rw [hfolds.totalIssues, hfolds'.totalIssues]
    exact Walk.issues_withBytes hdisk hf hroot habsolute hnolinks hroot' hdone hdone' _

namespace Walk

def pairEntries (bytes : List UInt8) : List (String × Node) :=
  [("a.txt", .file bytes .full), ("b.txt", .file [104, 105] .full)]

def pairDisk (bytes : List UInt8) : Disk :=
  ⟨.directory [("r", .directory (pairEntries bytes) .full)] .full, ["r"]⟩

theorem wellFormed_pairDisk (bytes : List UInt8) : (pairDisk bytes).root.WellFormed := by
  have htop : Node.WellFormed (.directory (pairEntries bytes) .full) :=
    .directory _ (by simp [pairEntries]) (by simp [pairEntries]; decide)
      (by simp [pairEntries, Node.WellFormed.file])
  exact .directory _ (by simp) (by simp; decide) (by simpa using htop)

theorem no_link_pairEntries (bytes : List UInt8) (q : Location) (target : String) :
    Node.at? (.directory (pairEntries bytes) .full) q ≠ some (.link target) := by
  cases q with
  | nil => simp
  | cons name q =>
    rw [Node.at?_cons, pairEntries, Node.child?_cons, Node.child?_cons]
    split
    · cases q <;> simp [Node.at?]
    · split
      · cases q <;> simp [Node.at?]
      · simp [Node.child?]

theorem scan_pairDisk (bytes : List UInt8) :
    ∃ report, (scanDirectory (pairDisk bytes) "/r" none sampleClock).result = .ok report := by
  have hvalid : (validateDirectory (pairDisk bytes) "/r").result = .ok "/r" := rfl
  have hnode : (pairDisk bytes).node "/r" = .ok (.directory (pairEntries bytes) .full) := rfl
  have hskips : (Config.orDefault none).skips = .ok .default := Config.skips_default
  have hwf := Disk.wellFormed_node (wellFormed_pairDisk bytes) hnode
  rw [result_of_valid hvalid hskips]
  refine reportWalk_ok_iff.2 ((completed_iff_unobstructed hnode hwf).2 fun q e => ?_)
  rintro ⟨d, name, target, rfl, -, hat, -⟩
  exact no_link_pairEntries bytes _ target hat

end Walk

theorem one_file_affects_itself_undecodable :
    (Walk.pairDisk []).withBytes ["r", "a.txt"] [255] .full = Walk.pairDisk [255] ∧
    (documentAt (Walk.pairDisk []) "/r/a.txt" ["a.txt"]).readError = none ∧
    (documentAt (Walk.pairDisk [255]) "/r/a.txt" ["a.txt"]).text = none ∧
    ∃ report report',
      (scanDirectory (Walk.pairDisk []) "/r" none sampleClock).result = .ok report ∧
      (scanDirectory (Walk.pairDisk [255]) "/r" none sampleClock).result = .ok report' ∧
      report'.filesScanned = report.filesScanned ∧
      report'.keys.filter (fun k => k.file != "a.txt") =
        report.keys.filter (fun k => k.file != "a.txt") ∧
      report'.errors.filter (fun e => e.file != "a.txt") =
        report.errors.filter (fun e => e.file != "a.txt") := by
  have hsame : (Walk.pairDisk []).withBytes ["r", "a.txt"] [255] .full = Walk.pairDisk [255] := rfl
  have hvalid : (validateDirectory (Walk.pairDisk []) "/r").result = .ok "/r" := rfl
  have hnode : (Walk.pairDisk []).node "/r" =
      .ok (.directory (Walk.pairEntries []) .full) := rfl
  have hplace : (Walk.pairDisk []).locate "/r" =
      .ok (.node ["r"] (.directory (Walk.pairEntries []) .full)) := rfl
  obtain ⟨report, h⟩ := Walk.scan_pairDisk []
  obtain ⟨report', h'⟩ := Walk.scan_pairDisk [255]
  obtain ⟨root, place, top, hroot, hlocate, hfiles, -, hother, -⟩ :=
    one_file_affects_itself (Walk.pairDisk []) (Walk.wellFormed_pairDisk []) ["r", "a.txt"] []
      [255] .full rfl "/r" none sampleClock sampleClock (fun root top hroot htop q target n hat => by
        obtain rfl := Except.ok.inj (hvalid.symm.trans hroot)
        obtain rfl := Except.ok.inj (hnode.symm.trans htop)
        exact absurd hat (Walk.no_link_pairEntries [] q target)) report report' h (hsame ▸ h')
  obtain rfl := Except.ok.inj (hvalid.symm.trans hroot)
  obtain ⟨rfl, rfl⟩ := Disk.Found.node.inj (Except.ok.inj (hplace.symm.trans hlocate))
  obtain ⟨hkeys, -, herrors⟩ := hother (fun text => text != "a.txt") fun p hp => by
    have hp : ["r"] ++ ["a.txt"] = ["r"] ++ p := hp
    obtain rfl := List.append_cancel_left hp
    decide
  exact ⟨hsame, by decide, by decide, report, report', h, h', hfiles, hkeys, herrors⟩

end LeakScan
