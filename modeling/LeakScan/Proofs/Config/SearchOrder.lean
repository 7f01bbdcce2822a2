import LeakScan.Proofs.Config.Endings
import LeakScan.Proofs.Disk.Dangling

namespace LeakScan

namespace Config

variable {disk disk' : Disk} {given : Option String} {root path wanted : String}
  {place : Location} {n : Node}

def ofNode (path : String) (n : Node) : Except FileFault Config :=
  match Disk.contentOf n with
  | .error f => .error (.path ⟨f, path⟩)
  | .ok bytes => ofBytes bytes

/-- What the loading of the node at a path comes to, whatever else stands on the disk. -/
def loadNode (path : String) (n : Node) : Noted LoadFailure Config :=
  match ofNode path n with
  | .error f => .fail (f.failure path)
  | .ok c => ⟨[⟨.info, source, "Loaded config: " ++ path⟩], .ok c⟩

theorem loadFile_of_node (h : disk.node path = .ok n) : loadFile disk path = loadNode path n := by
  have hfile : ofFile disk path = ofNode path n := by
    cases hread : Disk.contentOf n with
    | error f => simp only [ofFile, ofNode, Disk.readAt, h, hread, Except.mapError]
    | ok bytes => simp only [ofFile, ofNode, Disk.readAt, h, hread, Except.mapError]
  cases hresult : ofNode path n with
  | error f => simp only [loadFile, loadNode, hfile, hresult]
  | ok c => simp only [loadFile, loadNode, hfile, hresult]

theorem isPresent_of_none (htest : ∀ e, disk.isPresent path ≠ .error e)
    (hnone : ∀ n, disk.node path ≠ .ok n) : disk.isPresent path = .ok false := by
  rcases disk.node_cases path with ⟨n, hn⟩ | ⟨f, hf, habsent⟩ | hhides
  · exact absurd hn (hnone n)
  · exact Disk.holdsAt_of_absent hf habsent
  · obtain ⟨f, hf⟩ := Disk.holdsAt_of_hides hhides
    exact absurd hf (htest _)

theorem isPresent_of_node (h : disk.node path = .ok n) : disk.isPresent path = .ok true :=
  Disk.holdsAt_of_node h

theorem load_of_unwanted (hgiven : given = none ∨ given = some "") :
    load disk given root = loadFound disk root := by
  rcases hgiven with rfl | rfl
  · rfl
  · simp [load]

theorem isPresent_congr (h : disk'.node path = disk.node path) :
    disk'.isPresent path = disk.isPresent path := by
  simp only [Disk.isPresent, Disk.holdsAt, h]

theorem load_of_wanted (hwanted : wanted ≠ "") :
    load disk (some wanted) root = loadGiven disk wanted := by
  simp [load, hwanted]

theorem loadGiven_of_node (hplace : disk.canonical wanted = .ok place)
    (hnode : disk.node (Path.ofLocation place) = .ok n) :
    loadGiven disk wanted = loadNode (Path.ofLocation place) n := by
  unfold loadGiven
  simp only [hplace, isPresent_of_node hnode, loadFile_of_node hnode]

theorem loadGiven_of_none (hplace : disk.canonical wanted = .ok place)
    (habsent : disk.isPresent (Path.ofLocation place) = .ok false) :
    loadGiven disk wanted = .fail (.notFound (Path.ofLocation place)) := by
  unfold loadGiven
  simp only [hplace, habsent]

theorem loadGiven_congr (hplace : disk.canonical wanted = .ok place)
    (hplace' : disk'.canonical wanted = .ok place)
    (hnode : disk'.node (Path.ofLocation place) = disk.node (Path.ofLocation place)) :
    loadGiven disk' wanted = loadGiven disk wanted := by
  have hfile : loadFile disk' (Path.ofLocation place) = loadFile disk (Path.ofLocation place) := by
    simp only [loadFile, ofFile, Disk.readAt, hnode]
  unfold loadGiven
  simp only [hplace, hplace', isPresent_congr hnode, hfile]

theorem isName_of_mem_fileNames : ∀ name ∈ fileNames, Node.IsName name := by decide

abbrev entryAt (place : Location) (name : String) : String := Path.ofLocation (place ++ [name])

theorem reached_first : Reached disk (filesAt place) (entryAt place ".keyhunter.yml") :=
  reached_cons.2 (.inl rfl)

theorem reached_second (habsent : disk.isPresent (entryAt place ".keyhunter.yml") = .ok false) :
    Reached disk (filesAt place) (entryAt place ".keyhunter.yaml") :=
  reached_cons.2 (.inr ⟨habsent, reached_cons.2 (.inl rfl)⟩)

theorem loadFound_of_node (hroot : IsRoot disk root place)
    (hreached : Reached disk (filesAt place) path) (hnode : disk.node path = .ok n) :
    loadFound disk root = loadNode path n := by
  rw [loadFound_of_reached hroot hreached (isPresent_of_node hnode), loadFile_of_node hnode]

theorem loadFound_of_none (hroot : IsRoot disk root place)
    (habsent : ∀ path ∈ filesAt place, disk.isPresent path = .ok false) :
    (loadFound disk root).result = .ok default := by
  unfold loadFound
  simp only [candidates_of_isRoot hroot, firstPresent_none.2 habsent]

/-- A file that is asked for decides alone what loading comes to, wherever the root is and whatever
else stands on the disk. Else the first file that exists at the root decides, whatever it is and
whatever the other one is, and without one there are the defaults. A link that leads to nothing does
not count as an entry of the root. A file that must not be read is there and cannot be loaded, and so
is a directory. -/
theorem sources_in_order :
    (∀ (disk : Disk) (wanted root : String) (place : Location), wanted ≠ "" →
      disk.canonical wanted = .ok place →
        (∀ n, disk.node (Path.ofLocation place) = .ok n →
          load disk (some wanted) root = loadNode (Path.ofLocation place) n) ∧
        ((∀ e, disk.isPresent (Path.ofLocation place) ≠ .error e) →
          (∀ n, disk.node (Path.ofLocation place) ≠ .ok n) →
          load disk (some wanted) root = .fail (.notFound (Path.ofLocation place))) ∧
        ∀ (disk' : Disk) (root' : String), disk'.canonical wanted = .ok place →
          disk'.node (Path.ofLocation place) = disk.node (Path.ofLocation place) →
          load disk' (some wanted) root' = load disk (some wanted) root) ∧
    (∀ (disk : Disk) (given : Option String) (root : String) (place : Location),
      given = none ∨ given = some "" → IsRoot disk root place →
        (∀ n, disk.node (entryAt place ".keyhunter.yml") = .ok n →
          load disk given root = loadNode (entryAt place ".keyhunter.yml") n) ∧
        ((∀ e, disk.isPresent (entryAt place ".keyhunter.yml") ≠ .error e) →
          (∀ n, disk.node (entryAt place ".keyhunter.yml") ≠ .ok n) →
          (∀ n, disk.node (entryAt place ".keyhunter.yaml") = .ok n →
            load disk given root = loadNode (entryAt place ".keyhunter.yaml") n) ∧
          ((∀ e, disk.isPresent (entryAt place ".keyhunter.yaml") ≠ .error e) →
            (∀ n, disk.node (entryAt place ".keyhunter.yaml") ≠ .ok n) →
            (load disk given root).result = .ok default))) ∧
    (∀ (disk : Disk) (place q : Location) (entries : List (String × Node)) (access : Access)
      (name target : String), name ∈ fileNames →
      disk.locate (Path.ofLocation place) = .ok (.node q (.directory entries access)) →
      Node.child? entries name = some (.link target) → Disk.Dangling disk.root q target →
        ∀ n, disk.node (entryAt place name) ≠ .ok n) ∧
    ∀ (path : String) (n : Node) (f : PathFault), Disk.contentOf n = .error f →
      loadNode path n = .fail (.badFile path (.path ⟨f, path⟩)) := by
  refine ⟨fun disk wanted root place hwanted hplace => ⟨fun n hn => ?_, fun htest hnone => ?_,
    fun disk' root' hplace' hnode => ?_⟩, fun disk given root place hgiven hroot =>
      ⟨fun n hn => ?_, fun htest hnone => ?_⟩,
    fun disk place q entries access name target hname hdir hlink hdangling => ?_,
    fun path n f hf => ?_⟩
  · rw [load_of_wanted hwanted, loadGiven_of_node hplace hn]
  · rw [load_of_wanted hwanted, loadGiven_of_none hplace (isPresent_of_none htest hnone)]
  · rw [load_of_wanted hwanted, load_of_wanted hwanted, loadGiven_congr hplace hplace' hnode]
  · rw [load_of_unwanted hgiven, loadFound_of_node hroot reached_first hn]
  · have hfirst := isPresent_of_none htest hnone
    rw [load_of_unwanted hgiven]
    refine ⟨fun n hn => loadFound_of_node hroot (reached_second hfirst) hn, fun htest' hnone' => ?_⟩
    have hsecond := isPresent_of_none htest' hnone'
    exact loadFound_of_none hroot
      (List.forall_mem_cons.2 ⟨hfirst, List.forall_mem_singleton.2 hsecond⟩)
  · exact hdangling.node_ne (isName_of_mem_fileNames name hname) hdir hlink
  · simp only [loadNode, ofNode, hf, FileFault.failure]

/-- A root whose first settings file is a directory, one where it must not be read, one where it is a
link to nothing, and one without settings files. -/
def sourcesDisk : Disk :=
  ⟨.directory [
    ("bad", .directory [(".keyhunter.yml", .empty), (".keyhunter.yaml", .file [] .full)] .full),
    ("shut", .directory [(".keyhunter.yml", .file [] { read := false }),
      (".keyhunter.yaml", .file [] .full)] .full),
    ("odd", .directory
      [(".keyhunter.yml", .link "gone"), (".keyhunter.yaml", .file [] .full)] .full),
    ("bare", .empty)] .full, []⟩

theorem sources_in_order_sample :
    load sourcesDisk (some "/odd/.keyhunter.yaml") "/bad" =
      loadNode "/odd/.keyhunter.yaml" (.file [] .full) ∧
    (load sourcesDisk none "/bad").result = .error (.badFile "/bad/.keyhunter.yml"
      (.path ⟨.isDirectory, "/bad/.keyhunter.yml"⟩)) ∧
    (load sourcesDisk none "/shut").result = .error (.badFile "/shut/.keyhunter.yml"
      (.path ⟨.denied, "/shut/.keyhunter.yml"⟩)) ∧
    load sourcesDisk none "/odd" = loadNode "/odd/.keyhunter.yaml" (.file [] .full) ∧
    (load sourcesDisk none "/bare").result = .ok default := by
  obtain ⟨hasked, hfound, hlink, hfault⟩ := sources_in_order
  have hbad : load sourcesDisk none "/bad" = loadNode "/bad/.keyhunter.yml" .empty :=
    (hfound sourcesDisk none "/bad" ["bad"] (.inl rfl) ⟨rfl, rfl⟩).1 _ rfl
  have hshut : load sourcesDisk none "/shut" =
      loadNode "/shut/.keyhunter.yml" (.file [] { read := false }) :=
    (hfound sourcesDisk none "/shut" ["shut"] (.inl rfl) ⟨rfl, rfl⟩).1 _ rfl
  have hdangling : Disk.Dangling sourcesDisk.root ["odd"] "gone" := by
    intro links q n hn
    have hvacant : Disk.descend sourcesDisk.root ["odd"] ["gone"] =
        .found (.vacant ["odd"] "gone") := rfl
    rw [Disk.startOf, if_neg (by decide)] at hn
    cases (Disk.locateFrom_of_found hvacant).symm.trans hn
  have htest {path : String} (h : sourcesDisk.isPresent path = .ok false) (e : PathError) :
      sourcesDisk.isPresent path ≠ .error e := by
    rw [h]
    simp
  have hbare {path : String} (h : sourcesDisk.node path = .error .noEntry) (n : Node) :
      sourcesDisk.node path ≠ .ok n := by
    rw [h]
    simp
  refine ⟨?_, ?_, ?_, ?_, ?_⟩
  · exact (hasked sourcesDisk "/odd/.keyhunter.yaml" "/bad" ["odd", ".keyhunter.yaml"] (by decide)
      rfl).1 _ rfl
  · rw [hbad, hfault _ _ .isDirectory rfl]
    rfl
  · rw [hshut, hfault _ _ .denied rfl]
    rfl
  · have hnone := hlink sourcesDisk ["odd"] ["odd"] _ .full ".keyhunter.yml" "gone" (by decide)
      rfl rfl hdangling
    exact ((hfound sourcesDisk none "/odd" ["odd"] (.inl rfl) ⟨rfl, rfl⟩).2 (htest rfl) hnone).1
      _ rfl
  · exact ((hfound sourcesDisk none "/bare" ["bare"] (.inl rfl) ⟨rfl, rfl⟩).2 (htest rfl)
      (hbare rfl)).2 (htest rfl) (hbare rfl)

end Config

end LeakScan
