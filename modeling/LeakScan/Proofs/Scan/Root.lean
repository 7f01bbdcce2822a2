import LeakScan.Proofs.Disk.Rooted
import LeakScan.Scan.Directory

namespace LeakScan

namespace Disk

variable {disk : Disk} {path : String} {f : PathFault}

def Denotes (d : Disk) (path : String) (n : Node) : Prop :=
  ∃ place, d.canonical path = .ok place ∧ d.node (Path.ofLocation place) = .ok n

theorem not_denotes {place : Location} (hplace : disk.canonical path = .ok place)
    (hnode : disk.node (Path.ofLocation place) = .error f) (n : Node) : ¬ disk.Denotes path n := by
  rintro ⟨place', hplace', hn⟩
  obtain rfl := Except.ok.inj (hplace.symm.trans hplace')
  rw [hnode] at hn
  cases hn

end Disk

/-- The endings of the check of a root, told by what stands at its canonical path. A path that
cannot be asked for is reported as it was given. -/
inductive RootEnding (disk : Disk) (given : String) : Except ScanFailure String → Prop where
  | accepted {place : Location} {entries : List (String × Node)} {access : Access} :
      disk.canonical given = .ok place →
      disk.node (Path.ofLocation place) = .ok (.directory entries access) →
      RootEnding disk given (.ok (Path.ofLocation place))
  | notDirectory {place : Location} {n : Node} : disk.canonical given = .ok place →
      disk.node (Path.ofLocation place) = .ok n → n.isDirectory = false →
      RootEnding disk given (.error (.notDirectory (Path.ofLocation place)))
  | absent {place : Location} {f : PathFault} : disk.canonical given = .ok place →
      disk.node (Path.ofLocation place) = .error f → f.meansAbsent = true →
      RootEnding disk given (.error (.missingDirectory (Path.ofLocation place)))
  | hidden {place : Location} : disk.canonical given = .ok place →
      disk.Hides (Path.ofLocation place) →
      RootEnding disk given (.error (.missingDirectory given))
  | nul : disk.canonical given = .error .nul →
      RootEnding disk given (.error (.missingDirectory given))
  /-- The links on the way have no end. -/
  | loop {path : String} : disk.canonical given = .error (.loop path) →
      RootEnding disk given (.error (.loop path))

variable {disk : Disk} {given : String} {x : Except ScanFailure String}

theorem RootEnding.result (h : RootEnding disk given x) :
    (validateDirectory disk given).result = x := by
  unfold validateDirectory Disk.isPresent Disk.isDirectory
  cases h with
  | accepted hplace hnode => simp [hplace, Disk.holdsAt_of_node hnode, Node.isDirectory, Noted.ok]
  | notDirectory hplace hnode hn => simp [hplace, Disk.holdsAt_of_node hnode, hn, Noted.fail]
  | absent hplace hnode hf => simp [hplace, Disk.holdsAt_of_absent hnode hf, Noted.fail]
  | hidden hplace hhides =>
    obtain ⟨f, hf⟩ : ∃ f, disk.holdsAt _ (fun _ => true) = .error ⟨f, _⟩ :=
      Disk.holdsAt_of_hides hhides
    simp [hplace, hf]
  | nul hnul => simp [hnul]
  | loop hloop => simp [hloop, Noted.fail]

theorem exists_rootEnding (disk : Disk) (given : String) : ∃ x, RootEnding disk given x := by
  cases hplace : disk.canonical given with
  | error e =>
    cases e with
    | loop path => exact ⟨_, .loop hplace⟩
    | nul => exact ⟨_, .nul hplace⟩
  | ok place =>
    rcases disk.node_cases (Path.ofLocation place) with ⟨n, hn⟩ | ⟨f, hf, habsent⟩ | hhides
    · cases n with
      | directory entries access => exact ⟨_, .accepted hplace hn⟩
      | file _ _ | link _ | pipe => exact ⟨_, .notDirectory hplace hn rfl⟩
    · exact ⟨_, .absent hplace hf habsent⟩
    · exact ⟨_, .hidden hplace hhides⟩

theorem rootEnding_iff : RootEnding disk given x ↔ (validateDirectory disk given).result = x := by
  constructor
  · exact RootEnding.result
  · rintro rfl
    obtain ⟨x, hx⟩ := exists_rootEnding disk given
    rw [hx.result]
    exact hx

theorem accepted_of_validateDirectory {root : String}
    (h : (validateDirectory disk given).result = .ok root) :
    ∃ place entries access, disk.canonical given = .ok place ∧ root = Path.ofLocation place ∧
      disk.node root = .ok (.directory entries access) := by
  cases rootEnding_iff.2 h with
  | accepted hplace hnode => exact ⟨_, _, _, hplace, rfl, hnode⟩

theorem validateDirectory_ofLocation {place : Location} {entries : List (String × Node)}
    {access : Access} (hdisk : disk.root.WellFormed)
    (hdir : disk.locate (Path.ofLocation place) = .ok (.node place (.directory entries access))) :
    (validateDirectory disk (Path.ofLocation place)).result = .ok (Path.ofLocation place) :=
  RootEnding.result (.accepted
    (Disk.canonical_ofLocation hdisk (Disk.at?_of_locateFrom (Disk.locate_ok hdir).2))
    (Disk.node_eq_ok.2 ⟨place, hdir⟩))

theorem RootEnding.not_denotes {path : String}
    (h : RootEnding disk given (.error (.missingDirectory path))) (n : Node) :
    ¬ disk.Denotes given n := by
  cases h with
  | absent hplace hnode _ => exact Disk.not_denotes hplace hnode n
  | hidden hplace hhides =>
    obtain ⟨f, hf, -⟩ := hhides
    exact Disk.not_denotes hplace hf n
  | nul hnul =>
    rintro ⟨place, hplace, -⟩
    rw [hnul] at hplace
    cases hplace

theorem RootEnding.failure {e : ScanFailure} (h : RootEnding disk given (.error e)) :
    (∃ path n, e = .notDirectory path ∧ disk.Denotes given n ∧ n.isDirectory = false) ∨
      (∃ path, e = .missingDirectory path ∧ ∀ n, ¬ disk.Denotes given n) ∨
      ∃ path, e = .loop path ∧ disk.canonical given = .error (.loop path) := by
  cases h with
  | @notDirectory place n hplace hnode hn =>
    exact .inl ⟨_, n, rfl, ⟨place, hplace, hnode⟩, hn⟩
  | absent hplace hnode hf =>
    exact .inr (.inl ⟨_, rfl, fun n => RootEnding.not_denotes (.absent hplace hnode hf) n⟩)
  | hidden hplace hhides =>
    exact .inr (.inl ⟨_, rfl, fun n => RootEnding.not_denotes (.hidden hplace hhides) n⟩)
  | nul hnul => exact .inr (.inl ⟨_, rfl, fun n => RootEnding.not_denotes (.nul hnul) n⟩)
  | loop hloop => exact .inr (.inr ⟨_, rfl, hloop⟩)

/-- A check of a root ends in one of six ways. A root that is accepted is absolute and leads to a
directory. What fails is reported as no directory if something else stands at the canonical path, and
as missing if nothing does, unless the links on the way have no end: this is not reported but breaks
the check off, and needs a link in the tree. -/
theorem root_check_ends (disk : Disk) (given : String) :
    (∀ x, (validateDirectory disk given).result = x ↔ RootEnding disk given x) ∧
    (∀ root, (validateDirectory disk given).result = .ok root →
      Path.isAbsolute root = true ∧
      ∃ entries access, disk.node root = .ok (.directory entries access)) ∧
    (∀ e, (validateDirectory disk given).result = .error e → e.isReported = true →
      (e.message = "Path is not a directory" ↔
        ∃ n, disk.Denotes given n ∧ n.isDirectory = false) ∧
      (e.message = "Directory does not exist" ↔ ∀ n, ¬ disk.Denotes given n)) ∧
    (∀ e, (validateDirectory disk given).result = .error e → e.isReported = false →
      ∃ path, e = .loop path ∧ disk.canonical given = .error (.loop path) ∧
        disk.node path = .error .tooManyLinks ∧
        ∃ q target, disk.root.at? q = some (.link target)) := by
  have hdiffer : "Path is not a directory" ≠ "Directory does not exist" := by decide
  refine ⟨fun x => rootEnding_iff.symm, fun root h => ?_, fun e h hreported => ?_,
    fun e h hreported => ?_⟩
  · cases rootEnding_iff.2 h with
    | accepted hplace hnode => exact ⟨Path.isAbsolute_ofLocation _, _, _, hnode⟩
  · obtain ⟨path, n, rfl, hdenotes, hn⟩ | ⟨path, rfl, hnone⟩ | ⟨path, rfl, -⟩ :=
      (rootEnding_iff.2 h).failure
    · exact ⟨⟨fun _ => ⟨n, hdenotes, hn⟩, fun _ => rfl⟩,
        ⟨fun heq => absurd heq hdiffer, fun hnone => absurd hdenotes (hnone n)⟩⟩
    · exact ⟨⟨fun heq => absurd heq.symm hdiffer, fun ⟨n, hn, _⟩ => absurd hn (hnone n)⟩,
        ⟨fun _ => hnone, fun _ => rfl⟩⟩
    · cases hreported
  · obtain ⟨path, n, rfl, -⟩ | ⟨path, rfl, -⟩ | ⟨path, rfl, hloop⟩ := (rootEnding_iff.2 h).failure
    · cases hreported
    · cases hreported
    · have hnode := Disk.canonical_loop hloop
      exact ⟨path, rfl, hloop, hnode, Disk.exists_link_of_node hnode⟩

def strayDisk : Disk :=
  ⟨.directory [("d", .directory [("f", .file [] .full)] .full), ("l", .link "d/./f"),
    ("gone", .link "d/g")] .full, ["d"]⟩

theorem root_check_ends_stray :
    ((validateDirectory strayDisk "/l").result = .error (.notDirectory "/d/f") ∧
      ∃ n, strayDisk.Denotes "/l" n ∧ n.isDirectory = false) ∧
    ((validateDirectory strayDisk "../gone").result = .error (.missingDirectory "/d/g") ∧
      ∀ n, ¬ strayDisk.Denotes "../gone" n) ∧
    (validateDirectory strayDisk "..").result = .ok "/" ∧
      ∃ entries access, strayDisk.node "/" = .ok (.directory entries access) := by
  obtain ⟨-, -, hfile, -⟩ := root_check_ends strayDisk "/l"
  obtain ⟨-, -, hgone, -⟩ := root_check_ends strayDisk "../gone"
  obtain ⟨-, htop, -, -⟩ := root_check_ends strayDisk ".."
  exact ⟨⟨rfl, (hfile _ rfl rfl).1.1 rfl⟩, ⟨rfl, (hgone _ rfl rfl).2.1 rfl⟩, rfl, (htop _ rfl).2⟩

/-- The root is a link to itself, and the check is broken off. -/
theorem loop_breaks_check :
    (validateDirectory ⟨.directory [("ROOT", .directory [("loop", .link "loop")] .full)] .full,
      ["ROOT"]⟩ "loop").result = .error (.loop "/ROOT/loop") ∧
    (ScanFailure.loop "/ROOT/loop").isReported = false := ⟨rfl, rfl⟩

end LeakScan
