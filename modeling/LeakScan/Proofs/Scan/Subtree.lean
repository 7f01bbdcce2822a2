import LeakScan.Proofs.Document.Findings
import LeakScan.Proofs.Scan.Fold
import LeakScan.Proofs.Walk.Subtree

namespace LeakScan

variable {p : Location} {d : Document} {catalog : Catalog}

def KeyFinding.under (p : Location) (f : KeyFinding) : KeyFinding :=
  { f with file := relativeText p ++ "/" ++ f.file }

def FileFinding.under (p : Location) (f : FileFinding) : FileFinding :=
  { f with file := relativeText p ++ "/" ++ f.file }

def CodeFinding.under (p : Location) (f : CodeFinding) : CodeFinding :=
  { f with file := relativeText p ++ "/" ++ f.file }

/-- The same finding, in a file that is shown below a place. -/
def Finding.under (p : Location) : Finding → Finding
  | .key f => .key (f.under p)
  | .sensitive f => .sensitive (f.under p)
  | .code f => .code (f.under p)

namespace Document

theorem keyFindings_under :
    (d.under p).keyFindings catalog = (d.keyFindings catalog).map (KeyFinding.under p) := by
  unfold keyFindings
  rw [show (d.under p).text = d.text from rfl]
  split
  · rfl
  · rw [Detector.map_filterMap_lineIn?]
    rfl

theorem codeFindings_under :
    (d.under p).codeFindings catalog = (d.codeFindings catalog).map (CodeFinding.under p) := by
  unfold codeFindings
  rw [show (d.under p).text = d.text from rfl, show (d.under p).codeText = d.codeText from rfl]
  split
  · split
    · rfl
    · rw [Detector.map_filterMap_lineIn?]
      rfl
  · rfl

theorem fileFindings_under :
    (d.under p).fileFindings catalog = (d.fileFindings catalog).map (FileFinding.under p) := by
  have hname : baseName (d.under p).path = baseName d.path := baseName_append_slash _ _
  unfold fileFindings
  rw [show (d.under p).text = d.text from rfl, show (d.under p).origin = d.origin from rfl, hname]
  split
  · split
    · rfl
    · split
      · rfl
      · rw [List.map_filterMap]
        refine List.filterMap_congr fun name _ => ?_
        split <;> rfl
  · split <;> rfl

theorem findings_under :
    (d.under p).findings catalog = (d.findings catalog).map (Finding.under p) := by
  unfold findings
  rw [keyFindings_under, codeFindings_under, fileFindings_under]
  simp only [List.map_append, List.map_map]
  rfl

end Document

namespace Finding

/-- Two lists hold the same findings of each kind in the same order. -/
structure SameByKind (fs gs : List Finding) : Prop where
  keys : fs.filterMap key? = gs.filterMap key?
  sensitiveFiles : fs.filterMap sensitive? = gs.filterMap sensitive?
  codes : fs.filterMap code? = gs.filterMap code?

variable {fs gs hs : List Finding}

theorem SameByKind.refl (fs : List Finding) : SameByKind fs fs := ⟨rfl, rfl, rfl⟩

theorem SameByKind.symm (h : SameByKind fs gs) : SameByKind gs fs :=
  ⟨h.keys.symm, h.sensitiveFiles.symm, h.codes.symm⟩

theorem SameByKind.trans (h : SameByKind fs gs) (h' : SameByKind gs hs) : SameByKind fs hs :=
  ⟨h.keys.trans h'.keys, h.sensitiveFiles.trans h'.sensitiveFiles, h.codes.trans h'.codes⟩

theorem sameByKind_flatMap {α : Type} {as : List α} {f g : α → List Finding}
    (h : ∀ a ∈ as, SameByKind (f a) (g a)) : SameByKind (as.flatMap f) (as.flatMap g) := by
  refine ⟨?_, ?_, ?_⟩
  · rw [List.filterMap_flatMap, List.filterMap_flatMap]
    exact List.flatMap_congr fun a ha => (h a ha).keys
  · rw [List.filterMap_flatMap, List.filterMap_flatMap]
    exact List.flatMap_congr fun a ha => (h a ha).sensitiveFiles
  · rw [List.filterMap_flatMap, List.filterMap_flatMap]
    exact List.flatMap_congr fun a ha => (h a ha).codes

theorem filterMap_under {κ : Type} {g : Finding → Option κ} {move : κ → κ}
    (hg : ∀ f : Finding, g (f.under p) = (g f).map move) (fs : List Finding) :
    (fs.map (Finding.under p)).filterMap g = (fs.filterMap g).map move := by
  rw [List.filterMap_map, List.map_filterMap]
  exact List.filterMap_congr fun f _ => hg f

theorem SameByKind.under (h : SameByKind fs gs) (p : Location) :
    SameByKind (fs.map (Finding.under p)) (gs.map (Finding.under p)) := by
  have hkey (f : Finding) : key? (f.under p) = (key? f).map (KeyFinding.under p) := by
    cases f <;> rfl
  have hsensitive (f : Finding) :
      sensitive? (f.under p) = (sensitive? f).map (FileFinding.under p) := by cases f <;> rfl
  have hcode (f : Finding) : code? (f.under p) = (code? f).map (CodeFinding.under p) := by
    cases f <;> rfl
  refine ⟨?_, ?_, ?_⟩
  · rw [filterMap_under hkey, filterMap_under hkey, h.keys]
  · rw [filterMap_under hsensitive, filterMap_under hsensitive, h.sensitiveFiles]
  · rw [filterMap_under hcode, filterMap_under hcode, h.codes]

end Finding

theorem Report.Folds.sameByKind {report : Report} {w : Walk} (h : report.Folds catalog w) :
    Finding.SameByKind report.findings (w.documents.flatMap fun d => d.findings catalog) := by
  refine ⟨?_, ?_, ?_⟩
  · rw [List.filterMap_flatMap, ← h.keys]
    simp [Report.findings, List.filterMap_map, Function.comp_def, Finding.key?]
  · rw [List.filterMap_flatMap, ← h.sensitiveFiles]
    simp [Report.findings, List.filterMap_map, Function.comp_def, Finding.sensitive?]
  · rw [List.filterMap_flatMap, ← h.codeIssues]
    simp [Report.findings, List.filterMap_map, Function.comp_def, Finding.code?]

/-- What an entry adds to the findings of a directory: a subdirectory that is not skipped adds what a
scan of its own finds, anything else what is found in the document that has its name. -/
def entryFindings (catalog : Catalog) (skips : Config.Skips) (w : Walk) (part : String → Report) :
    String × Node → List Finding
  | (name, .directory _ _) =>
    if name ∈ skips.dirs then [] else (part name).findings.map (Finding.under [name])
  | (name, _) => (w.documents.filter fun d => d.path == name).flatMap fun d => d.findings catalog

theorem entryFindings_of_file {skips : Config.Skips} {w : Walk} {part : String → Report}
    {e : String × Node} (h : e.2.isDirectory = false) : entryFindings catalog skips w part e =
      (w.documents.filter fun d => d.path == e.1).flatMap fun d => d.findings catalog := by
  obtain ⟨name, n⟩ := e
  cases n with
  | directory inner w => simp [Node.isDirectory] at h
  | file _ _ | link _ | pipe => rfl

namespace Walk

variable {disk : Disk} {skips : Config.Skips} {root : String} {entries : List (String × Node)}
  {access : Access}

theorem documents_of_entries (hroot : disk.node root = .ok (.directory entries access))
    (hread : access.read = true) (hdone : (walk disk skips root).stopped = none) :
    (walk disk skips root).documents =
      (byName entries).flatMap fun e => (entryWalk disk skips access.search root e).documents := by
  rw [documents, (visits_of_completed hroot hread hdone).2, List.filterMap_flatMap]
  rfl

theorem reached_entry {name : String} {inner : List (String × Node)} {w : Access}
    (hwf : Node.WellFormed (.directory entries access))
    (hroot : disk.node root = .ok (.directory entries access)) (hread : access.read = true)
    (he : (name, .directory inner w) ∈ entries) (hname : name ∉ skips.dirs) :
    Reached skips root (.directory entries access) [name] := by
  have hchild := Node.child?_of_mem hwf.directory_nodup he
  refine ⟨⟨inner, w, ?_⟩, [], name, rfl, ?_, hname⟩
  · rw [Node.at?_cons, hchild]
    exact Node.at?_nil
  · exact opened_nil.2 (listable_nil.2 ⟨⟨entries, access, rfl, hread⟩, Disk.size_le_of_node hroot⟩)

section Root

variable (hdisk : disk.root.WellFormed) (hroot : disk.node root = .ok (.directory entries access))
  (hread : access.read = true) (hfits : Node.Fits (.directory entries access))
  (hdone : (walk disk skips root).stopped = none)

include hdisk hroot hread hfits hdone

theorem documents_named {e : String × Node} (he : e ∈ entries) (hfile : e.2.isDirectory = false) :
    (walk disk skips root).documents.filter (fun d => d.path == e.1) =
      (entryWalk disk skips access.search root e).documents := by
  have hwf := Disk.wellFormed_node hdisk hroot
  have hname : relativeText [e.1] = e.1 := String.intercalate_singleton (s := "/")
  rw [documents_of_entries hroot hread hdone,
    filter_flatMap_block (mem_byName.2 he) (nodup_byName hwf)]
  intro c hc d hd
  obtain ⟨v, hv, hvd⟩ := List.mem_filterMap.1 hd
  obtain ⟨q, hq, hnil⟩ := at_of_entryWalk hroot hwf hfits hdisk (mem_byName.1 hc) hv
  have hpath : d.path = relativeText (c.1 :: q) :=
    (Visit.relative_of_document? hvd).symm.trans hq.relative
  rw [beq_iff_eq, hpath]
  constructor
  · intro heq
    rw [← hname] at heq
    exact (List.cons.inj (relativeText_inj hq.names (by simpa using hwf.isName he) heq)).1
  · intro heq
    have hsame : c = e := List.inj_on_of_nodup_map hwf.directory_nodup (mem_byName.1 hc) he heq
    rw [hsame, hnil (hsame ▸ hfile), hname]

theorem findings_of_entries {report : Report} {part : String → Report}
    (hreport : report.Folds catalog (walk disk skips root))
    (hpart : ∀ name inner w, (name, .directory inner w) ∈ entries → name ∉ skips.dirs →
      (part name).Folds catalog (walk disk skips (Path.below root name))) :
    Finding.SameByKind report.findings
      ((byName entries).flatMap (entryFindings catalog skips (walk disk skips root) part)) := by
  have hwf := Disk.wellFormed_node hdisk hroot
  refine hreport.sameByKind.trans ?_
  rw [documents_of_entries hroot hread hdone, List.flatMap_assoc]
  refine Finding.sameByKind_flatMap fun e he => ?_
  have he := mem_byName.1 he
  cases hfile : e.2.isDirectory with
  | false =>
    rw [entryFindings_of_file hfile, documents_named hdisk hroot hread hfits hdone he hfile]
    exact .refl _
  | true =>
    obtain ⟨name, n⟩ := e
    cases n with
    | directory inner w =>
      unfold entryFindings
      simp only
      split
      · next hskip =>
        rw [entryWalk, walkEntry, if_pos hskip]
        exact .refl _
      · next hname =>
        have hmoved : (entryWalk disk skips access.search root
            (name, .directory inner w)).documents = (walk disk skips (Path.below root name)).documents.map (Document.under [name]) := by
          rw [entryWalk_directory hroot hwf hfits (Node.child?_of_mem hwf.directory_nodup he) hname]
          exact documents_under [name] _
        have hfindings : (entryWalk disk skips access.search root
            (name, .directory inner w)).documents.flatMap (fun d => d.findings catalog) =
              ((walk disk skips (Path.below root name)).documents.flatMap
                fun d => d.findings catalog).map (Finding.under [name]) := by
          rw [hmoved, List.flatMap_map, List.map_flatMap]
          exact List.flatMap_congr fun d _ => Document.findings_under
        rw [hfindings]
        exact (hpart name inner w he hname).sameByKind.symm.under [name]
    | file _ _ | link _ | pipe => simp [Node.isDirectory] at hfile

theorem exists_parts (catalog : Catalog) (clock : Clock) (report : Report) :
    ∃ part : String → Report, ∀ name inner w, (name, .directory inner w) ∈ entries →
      name ∉ skips.dirs → reportWalk catalog (Path.below root name) clock
        (walk disk skips (Path.below root name)) = .ok (part name) := by
  have hwf := Disk.wellFormed_node hdisk hroot
  have hpart (name : String) : ∃ r, ∀ inner w, (name, .directory inner w) ∈ entries →
      name ∉ skips.dirs → reportWalk catalog (Path.below root name) clock
        (walk disk skips (Path.below root name)) = .ok r := by
    by_cases h : ∃ inner w, (name, Node.directory inner w) ∈ entries ∧ name ∉ skips.dirs
    · obtain ⟨inner, w, he, hname⟩ := h
      have hstopped := (visits_below hdisk (by simp) hroot hfits hdone
        (reached_entry hwf hroot hread he hname)).1
      obtain ⟨r, hr⟩ : ∃ r, reportWalk catalog (Path.below root name) clock
          (walk disk skips (Path.below root name)) = .ok r := reportWalk_ok_iff.2 hstopped
      exact ⟨r, fun _ _ _ _ => hr⟩
    · exact ⟨report, fun inner w he hname => absurd ⟨inner, w, he, hname⟩ h⟩
  choose part hpart using hpart
  exact ⟨part, hpart⟩

end Root

end Walk

/-- Scanning is local to subtrees. What a walk that is not stopped meets below a directory that it
comes to, documents and reports alike, is what a walk from this directory meets, shown below it. So
the findings of a directory are those of its own files and those of scans of its subdirectories, put
together in the order of the names. -/
theorem scan_local_to_subtrees (disk : Disk) (hdisk : disk.root.WellFormed) (skips : Config.Skips)
    (root : String) (entries : List (String × Node)) (access : Access)
    (hroot : disk.node root = .ok (.directory entries access))
    (hfits : Node.Fits (.directory entries access))
    (hdone : (walk disk skips root).stopped = none) :
    (∀ p, Walk.Reached skips root (.directory entries access) p →
      (walk disk skips (Walk.pathBelow root p)).stopped = none ∧
      (walk disk skips root).documents.filter (fun d => isBelow p d.path) =
        (walk disk skips (Walk.pathBelow root p)).documents.map (Document.under p) ∧
      (walk disk skips root).unlisted.filter (fun u => u.1 == relativeText p || isBelow p u.1) =
        (walk disk skips (Walk.pathBelow root p)).unlisted.map fun u => (textUnder p u.1, u.2)) ∧
    ∀ catalog clock report, reportWalk catalog root clock (walk disk skips root) = .ok report →
      ∃ part : String → Report,
        (∀ name inner w, (name, .directory inner w) ∈ entries → name ∉ skips.dirs →
          access.read = true →
          reportWalk catalog (Path.below root name) clock
            (walk disk skips (Path.below root name)) = .ok (part name) ∧
          ∀ given config, (validateDirectory disk given).result = .ok (Path.below root name) →
            (Config.orDefault config).skips = .ok skips →
            Catalog.ofMode (Config.orDefault config).mode = catalog →
            (scanDirectory disk given config clock).result = .ok (part name)) ∧
        Finding.SameByKind report.findings (if access.read then
          (Walk.byName entries).flatMap
            (entryFindings catalog skips (walk disk skips root) part) else []) := by
  refine ⟨fun p hp => ⟨?_, ?_, ?_⟩, fun catalog clock report hreport => ?_⟩
  · have hp' := (hp.names (Disk.wellFormed_node hdisk hroot)).1
    exact (Walk.visits_below hdisk hp' hroot hfits hdone hp).1
  · exact Walk.documents_below hdisk hroot hfits hdone hp
  · exact Walk.unlisted_below hdisk hroot hfits hdone hp
  · obtain ⟨-, -, hfolds⟩ := folds_of_reportWalk hreport
    cases hread : access.read with
    | false =>
      refine ⟨fun _ => report, fun _ _ _ _ _ h => by simp at h, ?_⟩
      have hnone : (walk disk skips root).documents = [] := by
        unfold walk
        rw [hroot]
        simp only [hread]
        rfl
      have h := hfolds.sameByKind
      rw [hnone] at h
      exact h
    | true =>
      obtain ⟨part, hpart⟩ :=
        Walk.exists_parts hdisk hroot hread hfits hdone catalog clock report
      refine ⟨part, fun name inner w he hname _ => ⟨hpart name inner w he hname, ?_⟩, ?_⟩
      · rintro given config hvalid hskips rfl
        rw [result_of_valid hvalid hskips]
        exact hpart name inner w he hname
      · rw [if_pos rfl]
        refine Walk.findings_of_entries hdisk hroot hread hfits hdone hfolds
          fun name inner w he hname => ?_
        exact (folds_of_reportWalk (hpart name inner w he hname)).2.2

theorem scan_local_to_subtrees_ascending :
    Walk.ascendingDisk.root.WellFormed ∧
    Walk.ascendingDisk.node "/r" = .ok (.directory Walk.outerEntries .full) ∧
    (walk Walk.ascendingDisk .default "/r").stopped = none ∧
    Walk.Reached .default "/r" (.directory Walk.outerEntries .full) ["a"] ∧
    Walk.Reached .default "/r" (.directory Walk.outerEntries .full) ["b"] ∧
    (walk Walk.ascendingDisk .default "/r/a").documents.map (fun d => (d.under ["a"]).path) =
      ["a/x", "a/y"] ∧
    (walk Walk.ascendingDisk .default "/r/b").unlisted.map (fun u => (textUnder ["b"] u.1, u.2)) =
      [("b", ⟨.denied, "/r/b"⟩)] ∧
    ∃ report part, reportWalk (.build true) "/r" sampleClock
        (walk Walk.ascendingDisk .default "/r") = .ok report ∧
      reportWalk (.build true) "/r/a" sampleClock (walk Walk.ascendingDisk .default "/r/a") =
        .ok (part "a") ∧
      Finding.SameByKind report.findings ((Walk.byName Walk.outerEntries).flatMap
        (entryFindings (.build true) .default (walk Walk.ascendingDisk .default "/r") part)) := by
  have hroot : Walk.ascendingDisk.node "/r" = .ok (.directory Walk.outerEntries .full) := rfl
  have hwf := Disk.wellFormed_node Walk.wellFormed_ascendingDisk hroot
  have hdone : (walk Walk.ascendingDisk .default "/r").stopped = none := by
    rw [Walk.walk_ascendingDisk]
  have hinner : Node.Fits (.directory Walk.innerEntries .full) := by
    apply Walk.fits_directory
    simp only [Walk.innerEntries, List.forall_mem_cons]
    exact ⟨⟨by decide, Walk.fits_file _ _⟩, ⟨by decide, Walk.fits_file _ _⟩, by simp⟩
  have hfits : Node.Fits (.directory Walk.outerEntries .full) := by
    apply Walk.fits_directory
    simp only [Walk.outerEntries, List.forall_mem_cons]
    exact ⟨⟨by decide, hinner⟩, ⟨by decide, Walk.fits_file _ _⟩,
      ⟨by decide, Walk.fits_directory (by simp)⟩, by simp⟩
  obtain ⟨hlocal, hmerged⟩ := scan_local_to_subtrees Walk.ascendingDisk
    Walk.wellFormed_ascendingDisk .default "/r" Walk.outerEntries .full hroot hfits hdone
  have hmemA : ("a", .directory Walk.innerEntries .full) ∈ Walk.outerEntries := by
    simp [Walk.outerEntries]
  have hmemB : ("b", .directory [] { read := false }) ∈ Walk.outerEntries := by simp [Walk.outerEntries]
  have hkept : "a" ∉ Config.Skips.default.dirs ∧ "b" ∉ Config.Skips.default.dirs := by
    decide
  have ha : Walk.Reached .default "/r" (.directory Walk.outerEntries .full) ["a"] :=
    Walk.reached_entry hwf hroot rfl hmemA hkept.1
  have hb : Walk.Reached .default "/r" (.directory Walk.outerEntries .full) ["b"] :=
    Walk.reached_entry hwf hroot rfl hmemB hkept.2
  obtain ⟨-, hdocuments, -⟩ := hlocal ["a"] ha
  obtain ⟨-, -, hunlisted⟩ := hlocal ["b"] hb
  rw [Walk.walk_ascendingDisk] at hdocuments hunlisted
  obtain ⟨report, hreport⟩ : ∃ r, reportWalk (.build true) "/r" sampleClock
      (walk Walk.ascendingDisk .default "/r") = .ok r := reportWalk_ok_iff.2 hdone
  obtain ⟨part, hpart, hfindings⟩ := hmerged _ _ _ hreport
  refine ⟨Walk.wellFormed_ascendingDisk, hroot, hdone, ha, hb, ?_, ?_, report, part, hreport, ?_, ?_⟩
  · have h := congrArg (List.map Document.path) hdocuments
    rw [List.map_map] at h
    exact h.symm.trans (by decide)
  · exact hunlisted.symm.trans (by decide)
  · exact (hpart "a" Walk.innerEntries .full hmemA hkept.1 rfl).1
  · exact hfindings

end LeakScan
