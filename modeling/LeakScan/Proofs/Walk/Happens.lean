import LeakScan.Proofs.Disk.Tree
import LeakScan.Proofs.Walk.Trace

namespace LeakScan.Walk

variable {disk : Disk} {skips : Config.Skips}

def fileStep? (disk : Disk) (skips : Config.Skips) (name path : String) (relative : Location) :
    Option Step :=
  if skipsFile skips name then none
  else some (.ok (.document path (documentAt disk path relative)))

def ownStep? (disk : Disk) (skips : Config.Skips) (searchable : Bool) (name listed path : String)
    (relative : Location) : Node → Option Step
  | .directory _ access =>
    if name ∈ skips.dirs then none
    else (listingFault? path searchable access).map fun f =>
      .ok (.unlisted path (relativeText relative) ⟨f, path⟩)
  | .file _ _ => fileStep? disk skips name path relative
  | .link _ =>
    match leadsToDirectory disk listed with
    | .error e => some (.error e)
    | .ok true => none
    | .ok false => fileStep? disk skips name path relative
  | .pipe => none

/-- A step at a place below a listed directory, which the system knows as `directory`. -/
inductive Happens (disk : Disk) (skips : Config.Skips) :
    Bool → String → Location → List (String × Node) → Location → Step → Prop where
  | here {searchable : Bool} {directory : String} {relative : Location} {entries : List (String × Node)}
      {name : String} {n : Node} {s : Step} : (name, n) ∈ entries →
      ownStep? disk skips searchable name (Path.listed directory name) (Path.below directory name)
        (relative ++ [name]) n = some s →
      Happens disk skips searchable directory relative entries [name] s
  | deeper {searchable : Bool} {directory : String} {relative : Location}
      {entries inner : List (String × Node)} {name : String} {access : Access} {place : Location}
      {s : Step} :
      (name, .directory inner access) ∈ entries → name ∉ skips.dirs →
      listingFault? (Path.below directory name) searchable access = none →
      Happens disk skips access.search (Path.below directory name) (relative ++ [name]) inner place
        s →
      Happens disk skips searchable directory relative entries (name :: place) s

def EntryHappens (disk : Disk) (skips : Config.Skips) (searchable : Bool) (directory : String)
    (relative : Location) (e : String × Node) (q : Location) (s : Step) : Prop :=
  (q = [] ∧ ownStep? disk skips searchable e.1 (Path.listed directory e.1)
    (Path.below directory e.1) (relative ++ [e.1]) e.2 = some s) ∨
  ∃ inner access, e.2 = .directory inner access ∧ e.1 ∉ skips.dirs ∧
    listingFault? (Path.below directory e.1) searchable access = none ∧
    Happens disk skips access.search (Path.below directory e.1) (relative ++ [e.1]) inner q s

variable {searchable : Bool} {directory name root : String} {relative q : Location}
  {entries : List (String × Node)} {access : Access} {s : Step}

theorem entryHappens_directory {inner : List (String × Node)} :
    EntryHappens disk skips searchable directory relative (name, .directory inner access) q s ↔
      (q = [] ∧ ownStep? disk skips searchable name (Path.listed directory name)
        (Path.below directory name) (relative ++ [name]) (.directory inner access) = some s) ∨
      name ∉ skips.dirs ∧ listingFault? (Path.below directory name) searchable access = none ∧
        Happens disk skips access.search (Path.below directory name) (relative ++ [name]) inner q
          s := by
  refine or_congr Iff.rfl ⟨?_, fun h => ⟨inner, access, rfl, h⟩⟩
  rintro ⟨inner', access', heq, h⟩
  obtain ⟨rfl, rfl⟩ := Node.directory.inj heq
  exact h

theorem atEntry_iff_happens :
    AtEntry entries (·.1) (EntryHappens disk skips searchable directory relative) q s ↔
      Happens disk skips searchable directory relative entries q s := by
  constructor
  · rintro ⟨⟨name, n⟩, hmem, r, rfl, ⟨rfl, hs⟩ | ⟨inner, access, rfl, hname, hlist, hs⟩⟩
    · exact .here hmem hs
    · exact .deeper hmem hname hlist hs
  · rintro (⟨hmem, hs⟩ | ⟨hmem, hname, hlist, hs⟩)
    · exact ⟨_, hmem, [], rfl, .inl ⟨rfl, hs⟩⟩
    · exact ⟨_, hmem, _, rfl, .inr ⟨_, _, rfl, hname, hlist, hs⟩⟩

theorem walkEntries_eq_map (searchable : Bool) (directory : String) (relative : Location)
    (entries : List (String × Node)) :
    walkEntries disk skips searchable directory relative entries = entries.map fun e =>
      (e.1, walkEntry disk skips searchable e.1 (Path.listed directory e.1)
        (Path.below directory e.1) (relative ++ [e.1]) e.2) := by
  induction entries with
  | nil => rfl
  | cons e entries ih => rw [walkEntries, ih, List.map_cons]

theorem inOrder_of_ascending (h : entries.Pairwise fun a b => a.1 ≤ b.1) :
    inOrder (walkEntries disk skips searchable directory relative entries) =
      (walkEntries disk skips searchable directory relative entries).foldr
        (fun e rest => e.2.append rest) nothing := by
  have hwalks : (walkEntries disk skips searchable directory relative entries).Pairwise
      fun a b => a.1 ≤ b.1 := by
    rw [walkEntries_eq_map, List.pairwise_map]
    exact h
  rw [inOrder, List.mergeSort_of_pairwise (hwalks.imp fun hab => by simpa using hab)]

theorem walk_of_readable (hroot : disk.node root = .ok (.directory entries access))
    (hread : access.read = true) :
    walk disk skips root = inOrder (walkEntries disk skips access.search root [] entries) := by
  rw [walk, hroot]
  exact if_pos hread

theorem walk_of_ascending (hroot : disk.node root = .ok (.directory entries access))
    (hread : access.read = true) (h : entries.Pairwise fun a b => a.1 ≤ b.1) :
    walk disk skips root =
      (walkEntries disk skips access.search root [] entries).foldr
        (fun e rest => e.2.append rest) nothing := by
  rw [walk_of_readable hroot hread]
  exact inOrder_of_ascending h

theorem traces_walkFile {path : String} {R : Location → Step → Prop}
    (h : ∀ q s, R q s ↔ q = [] ∧ fileStep? disk skips name path relative = some s) :
    Traces R (walkFile disk skips name path relative) := by
  unfold walkFile
  split
  · next hskip => exact traces_nothing fun q s => by simp [h, fileStep?, hskip]
  · next hskip => exact traces_visit fun q s => by simp [h, fileStep?, hskip]

theorem traces_walkEntry {n : Node} (hn : n.WellFormed) :
    Traces (EntryHappens disk skips searchable directory relative (name, n))
      (walkEntry disk skips searchable name (Path.listed directory name) (Path.below directory name)
        (relative ++ [name]) n) := by
  induction hn generalizing searchable directory relative name with
  | file bytes access =>
    rw [walkEntry]
    exact traces_walkFile fun q s => by simp [EntryHappens, ownStep?]
  | @directory entries access nodup names below ih =>
    rw [walkEntry]
    split
    · next hskip =>
      exact traces_nothing fun q s => by simp [entryHappens_directory, ownStep?, hskip]
    · next hskip =>
      split
      · next f hf =>
        exact traces_visit fun q s => by simp [entryHappens_directory, ownStep?, hskip, hf]
      · next hf =>
        rw [walkEntries_eq_map]
        refine (traces_inOrder nodup fun e he => ih e he).congr fun q s => ?_
        rw [atEntry_iff_happens]
        simp [entryHappens_directory, ownStep?, hskip, hf]
  | link target =>
    rw [walkEntry]
    split
    · next e he =>
      exact traces_stop fun q s => by simp [EntryHappens, ownStep?, he]
    · next he => exact traces_nothing fun q s => by simp [EntryHappens, ownStep?, he]
    · next he => exact traces_walkFile fun q s => by simp [EntryHappens, ownStep?, he]
  | pipe =>
    rw [walkEntry]
    exact traces_nothing fun q s => by simp [EntryHappens, ownStep?]

def RootHappens (disk : Disk) (skips : Config.Skips) (root : String)
    (entries : List (String × Node)) (access : Access) (q : Location) (s : Step) : Prop :=
  if access.read then Happens disk skips access.search root [] entries q s
  else q = [] ∧ .ok (.unlisted root (relativeText []) ⟨.denied, root⟩) = s

theorem traces_walk (hroot : disk.node root = .ok (.directory entries access))
    (hwf : Node.WellFormed (.directory entries access)) :
    Traces (RootHappens disk skips root entries access) (walk disk skips root) := by
  unfold walk
  rw [hroot]
  dsimp only
  split
  · next hread =>
    rw [walkEntries_eq_map]
    refine (traces_inOrder hwf.directory_nodup fun e he =>
      traces_walkEntry (hwf.entry he)).congr fun q s => ?_
    rw [atEntry_iff_happens]
    simp [RootHappens, hread]
  · next hread => exact traces_visit fun q s => by simp [RootHappens, hread]

end LeakScan.Walk
