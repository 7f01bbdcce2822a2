import LeakScan.Proofs.Disk.Relisted
import LeakScan.Proofs.Walk.Alike

namespace LeakScan

/-- The place of a visit below the root, as it is reported. -/
def Visit.relative : Visit → String
  | .document _ d => d.path
  | .unlisted _ relative _ => relative

theorem Visit.relative_of_document? {v : Visit} {d : Document} (h : v.document? = some d) :
    v.relative = d.path := by
  cases v with
  | document path doc => exact congrArg Document.path (Option.some.inj h)
  | unlisted path relative e => simp [Visit.document?] at h

theorem Visit.relative_of_unlisted? {v : Visit} {u : String × PathError}
    (h : v.unlisted? = some u) : v.relative = u.1 := by
  cases v with
  | document path doc => simp [Visit.unlisted?] at h
  | unlisted path relative e => exact congrArg Prod.fst (Option.some.inj h)

namespace Walk

variable {disk disk' : Disk} {skips : Config.Skips} {root : String}
  {entries : List (String × Node)} {access : Access} {q : Location}

theorem walk_relisted (h : disk.Relisted disk') (hdisk : disk.root.WellFormed) :
    walk disk' skips root = walk disk skips root :=
  walk_alike h.alike hdisk blind_eq

theorem names_relative {v : Visit} (hroot : disk.node root = .ok (.directory entries access))
    (hwf : Node.WellFormed (.directory entries access))
    (hv : RootHappens disk skips root entries access q (.ok v)) : Path.names v.relative = q := by
  have hnames {k : Node} (hat : Node.at? (.directory entries access) q = some k) :
      Path.names (relativeText q) = q := names_relativeText (hwf.isName_of_at? hat)
  cases v with
  | document path doc =>
    obtain ⟨⟨d, name, -, -, hkind, -⟩, -, rfl⟩ := (document_happens_iff hroot hwf).1 hv
    rw [Visit.relative, path_documentAt]
    rcases hkind with ⟨_, _, hat⟩ | ⟨_, hat, -⟩
    · exact hnames hat
    · exact hnames hat
  | unlisted path relative e =>
    obtain ⟨⟨⟨_, _, hat⟩, -⟩, -, rfl, -⟩ := (unlisted_happens_iff hroot hwf).1 hv
    exact hnames hat

theorem visits_ascend (hdisk : disk.root.WellFormed) (skips : Config.Skips) (root : String) :
    ((walk disk skips root).visits.map fun v => Path.names v.relative).Pairwise (· < ·) := by
  have hvisit (v : Visit) :
      ((visit v).visits.map fun v => Path.names v.relative).Pairwise (· < ·) :=
    List.pairwise_singleton _ _
  cases hroot : disk.node root with
  | error f =>
    rw [walk_of_error hroot]
    split
    · exact .nil
    · exact hvisit _
  | ok n =>
    cases n with
    | directory entries access =>
      have hwf := Disk.wellFormed_node hdisk hroot
      have htraces : Traces (RootHappens disk skips root entries access)
          (walk disk skips root) := traces_walk hroot hwf
      obtain ⟨met, hsorted, hR, -, hvisits⟩ := htraces.visited
      have hplaces : (met.map fun e => Path.names e.2.relative) = met.map (·.1) :=
        List.map_congr_left fun e he => names_relative hroot hwf (hR e.1 e.2 he)
      rw [hvisits, List.map_map]
      exact hplaces ▸ hsorted
    | file _ _ | link _ | pipe =>
      rw [walk_of_not_directory hroot rfl]
      exact hvisit _

/-- A walk meets its documents in the order of their places, and so it reports the directories that
it could not list, whether it is stopped or not; no two documents have one path. On a disk that
lists the entries of directories in other orders the walk is the same. -/
theorem walk_ordered (disk : Disk) (hdisk : disk.root.WellFormed) (skips : Config.Skips)
    (root : String) :
    ((walk disk skips root).documents.map fun d => Path.names d.path).Pairwise (· < ·) ∧
    ((walk disk skips root).documents.map Document.path).Nodup ∧
    ((walk disk skips root).unlisted.map fun u => Path.names u.1).Pairwise (· < ·) ∧
    ∀ disk', disk.Relisted disk' → walk disk' skips root = walk disk skips root := by
  have hvisits := visits_ascend hdisk skips root
  rw [List.pairwise_map] at hvisits
  have hdocuments :
      ((walk disk skips root).documents.map fun d => Path.names d.path).Pairwise (· < ·) := by
    rw [List.pairwise_map, documents, List.pairwise_filterMap]
    refine hvisits.imp fun {v w} hlt d hd d' hd' => ?_
    rw [← Visit.relative_of_document? hd, ← Visit.relative_of_document? hd']
    exact hlt
  refine ⟨hdocuments, ?_, ?_, fun disk' h => walk_relisted h hdisk⟩
  · rw [List.pairwise_map] at hdocuments
    rw [List.Nodup, List.pairwise_map]
    refine hdocuments.imp fun {d d'} hlt heq => ?_
    rw [heq] at hlt
    exact List.lt_irrefl _ hlt
  · rw [List.pairwise_map, unlisted, List.pairwise_filterMap]
    refine hvisits.imp fun {v w} hlt u hu u' hu' => ?_
    rw [← Visit.relative_of_unlisted? hu, ← Visit.relative_of_unlisted? hu']
    exact hlt

def innerEntries : List (String × Node) := [("x", .file [] .full), ("y", .file [] .full)]

def outerEntries : List (String × Node) :=
  [("a", .directory innerEntries .full), ("a.txt", .file [] .full), ("b", .directory [] { read := false })]

def ascendingDisk : Disk := ⟨.directory [("r", .directory outerEntries .full)] .full, ["r"]⟩

def reversedEntries : List (String × Node) :=
  [("b", .directory [] { read := false }), ("a.txt", .file [] .full),
    ("a", .directory innerEntries.reverse .full)]

def descendingDisk : Disk := ⟨.directory [("r", .directory reversedEntries .full)] .full, ["r"]⟩

theorem wellFormed_innerEntries : Node.WellFormed (.directory innerEntries .full) :=
  .directory _ (by decide) (by decide) (by simp [innerEntries, Node.WellFormed.file])

theorem wellFormed_outerEntries : Node.WellFormed (.directory outerEntries .full) := by
  have hb : Node.WellFormed (.directory [] { read := false }) := .directory _ .nil (by simp) (by simp)
  refine .directory _ (by decide) (by decide) ?_
  simp [outerEntries, wellFormed_innerEntries, hb, Node.WellFormed.file]

theorem wellFormed_ascendingDisk : ascendingDisk.root.WellFormed :=
  .directory _ (by decide) (by decide) (by simpa using wellFormed_outerEntries)

theorem relisted_descendingDisk : ascendingDisk.Relisted descendingDisk := by
  have ha : Node.Relisted (.directory innerEntries .full) (.directory innerEntries.reverse .full) :=
    Node.relisted_of_perm wellFormed_innerEntries (List.reverse_perm _).symm
  have hb : Node.Relisted (.directory [] { read := false }) (.directory [] { read := false }) :=
    .directory _ (.refl _) (by simp)
  have hr : Node.Relisted (.directory outerEntries .full) (.directory reversedEntries .full) := by
    refine .directory _ (by decide) ?_
    simp [outerEntries, reversedEntries, ha, hb, Node.Relisted.file]
  exact ⟨.directory _ (.refl _) (by simpa using hr), rfl⟩

theorem walk_ascendingDisk : walk ascendingDisk .default "/r" =
    ⟨[.document "/r/a/x" { path := "a/x", text := some "" },
      .document "/r/a/y" { path := "a/y", text := some "" },
      .document "/r/a.txt" { path := "a.txt", text := some "" },
      .unlisted "/r/b" "b" ⟨.denied, "/r/b"⟩], none⟩ := by
  have hroot : ascendingDisk.node "/r" = .ok (.directory outerEntries .full) := rfl
  have hinner : inOrder (walkEntries ascendingDisk .default true (Path.below "/r" "a") ([] ++ ["a"])
      innerEntries) =
        ⟨[.document "/r/a/x" { path := "a/x", text := some "" },
          .document "/r/a/y" { path := "a/y", text := some "" }], none⟩ := by
    rw [inOrder_of_ascending (by decide)]
    decide
  have hlisted : listingFault? (Path.below "/r" "a") true .full = none := by decide
  rw [walk_of_ascending hroot rfl (by decide), outerEntries, walkEntries, walkEntry,
    if_neg (by decide)]
  simp only [Access.full] at hlisted ⊢
  rw [hlisted]
  simp only
  rw [hinner]
  decide

theorem walk_ordered_descending :
    ascendingDisk.root.WellFormed ∧ ascendingDisk.Relisted descendingDisk ∧
    (walk descendingDisk .default "/r").visits.map Visit.relative = ["a/x", "a/y", "a.txt", "b"] ∧
    ((walk ascendingDisk .default "/r").documents.map fun d => Path.names d.path).Pairwise
      (· < ·) := by
  obtain ⟨hdocuments, -, -, hlisting⟩ :=
    walk_ordered ascendingDisk wellFormed_ascendingDisk .default "/r"
  have hsame := hlisting descendingDisk relisted_descendingDisk
  refine ⟨wellFormed_ascendingDisk, relisted_descendingDisk, ?_, hdocuments⟩
  rw [hsame, walk_ascendingDisk]
  rfl

end Walk

end LeakScan
