import LeakScan.Proofs.Config.Skips
import LeakScan.Proofs.Disk.Follow

namespace LeakScan

namespace Config

variable {disk : Disk} {given : Option String} {root path : String} {paths : List String}
  {e : LoadFailure} {f : FileFault} {config : Config}

/-- The file that is asked for. An empty path asks for none. -/
def wanted? (given : Option String) : Option String := given.filter fun path => !path.isEmpty

theorem load_eq :
    load disk given root =
      match wanted? given with
      | some path => loadGiven disk path
      | none => loadFound disk root := by
  cases given with
  | none => rfl
  | some path =>
    by_cases hempty : path.isEmpty = true
    · simp [load, wanted?, hempty, Option.filter]
    · simp [load, wanted?, hempty, Option.filter]

/-- The paths of the settings files that may stand at a place, in the order in which they are asked
for. -/
def filesAt (place : Location) : List String :=
  fileNames.map fun name => Path.ofLocation (place ++ [name])

/-- Paths are asked for in turn up to this one: nothing stands at those before it. -/
def Reached (disk : Disk) (paths : List String) (path : String) : Prop :=
  ∃ before after, paths = before ++ path :: after ∧ ∀ q ∈ before, disk.isPresent q = .ok false

theorem reached_cons {other : String} :
    Reached disk (other :: paths) path ↔
      path = other ∨ disk.isPresent other = .ok false ∧ Reached disk paths path := by
  constructor
  · rintro ⟨before, after, heq, habsent⟩
    cases before with
    | nil => exact .inl (List.cons.inj heq).1.symm
    | cons q before =>
      obtain ⟨rfl, rfl⟩ := List.cons.inj heq
      exact .inr ⟨habsent _ List.mem_cons_self, before, after, rfl,
        fun r hr => habsent r (List.mem_cons_of_mem _ hr)⟩
  · rintro (rfl | ⟨hother, before, after, rfl, habsent⟩)
    · exact ⟨[], paths, rfl, by simp⟩
    · exact ⟨other :: before, after, rfl, List.forall_mem_cons.2 ⟨hother, habsent⟩⟩

theorem firstPresent_some :
    firstPresent disk paths = .ok (some path) ↔
      Reached disk paths path ∧ disk.isPresent path = .ok true := by
  induction paths with
  | nil => simp [firstPresent, Reached]
  | cons other paths ih =>
    rw [firstPresent, reached_cons]
    split
    · next e he => grind
    · next he => grind
    · next he => grind

theorem firstPresent_error {e : PathError} :
    firstPresent disk paths = .error e ↔
      ∃ path, Reached disk paths path ∧ disk.isPresent path = .error e := by
  induction paths with
  | nil => simp [firstPresent, Reached]
  | cons other paths ih =>
    simp only [firstPresent, reached_cons]
    split
    · next e he => grind
    · next he => grind
    · next he => grind

theorem firstPresent_none :
    firstPresent disk paths = .ok none ↔ ∀ path ∈ paths, disk.isPresent path = .ok false := by
  induction paths with
  | nil => simp [firstPresent]
  | cons other paths ih =>
    rw [firstPresent, List.forall_mem_cons]
    split
    · next e he => simp [he]
    · next he => simp [he]
    · next he => simp [he, ih]

/-- The root is a directory at the end of its links. -/
def IsRoot (disk : Disk) (root : String) (place : Location) : Prop :=
  disk.canonical root = .ok place ∧ disk.isDirectory (Path.ofLocation place) = .ok true

/-- The settings file that is read, if one is: the one that is asked for, or the first of those at
the root that is there. -/
inductive Chosen (disk : Disk) : Option String → String → String → Prop where
  | asked {wanted root : String} {place : Location} :
      disk.canonical wanted = .ok place → disk.isPresent (Path.ofLocation place) = .ok true →
      Chosen disk (some wanted) root (Path.ofLocation place)
  | found {root path : String} {place : Location} : IsRoot disk root place →
      Reached disk (filesAt place) path → disk.isPresent path = .ok true →
      Chosen disk none root path

inductive BreaksOff (disk : Disk) (wanted : Option String) (root : String) :
    LoadFailure → Prop where
  /-- The links on the way to the file that is asked for, or to the root, have no end. -/
  | loop {path : String} : disk.canonical (wanted.getD root) = .error (.loop path) →
      BreaksOff disk wanted root (.loop path)
  /-- It cannot be asked whether a settings file stands at the root: the root must not be searched, or
  the path is too long. -/
  | rootFile {path : String} {place : Location} {f : PathFault} : wanted = none →
      IsRoot disk root place → Reached disk (filesAt place) path → disk.node path = .error f →
      f = .denied ∨ f = .nameTooLong → BreaksOff disk wanted root (.rootFile ⟨f, path⟩)
  /-- The document breaks its reading. -/
  | document {path : String} {bytes : List UInt8} {f : Yaml.Fault} :
      Chosen disk wanted root path → disk.readAt path = .ok bytes →
      Yaml.read (.ofBytes bytes) = .error f → f.isReported = false →
      BreaksOff disk wanted root (.broken f)

theorem path?_failure (f : FileFault) :
    (f.failure path).path? = none ↔
      ∃ fault, f = .document fault ∧ fault.isReported = false ∧ f.failure path = .broken fault := by
  cases f with
  | document fault =>
    simp only [FileFault.failure]
    split
    · simp [LoadFailure.path?]
    · next h => simp [LoadFailure.path?, Bool.eq_false_iff.2 h]
  | path _ | notMap | settings _ => simp [FileFault.failure, LoadFailure.path?]

theorem ofFile_document {fault : Yaml.Fault} :
    ofFile disk path = .error (.document fault) ↔
      ∃ bytes, disk.readAt path = .ok bytes ∧ Yaml.read (.ofBytes bytes) = .error fault := by
  have hvalue (v : Value) : ofDocument v ≠ .error (.document fault) := by
    unfold ofDocument
    split
    · cases validate ⟨[]⟩ <;> exact nofun
    · next entries => cases validate ⟨entries⟩ <;> exact nofun
    · simp
  unfold ofFile ofBytes ofSource
  cases disk.readAt path with
  | error e => simp
  | ok bytes =>
    cases hread : Yaml.read (.ofBytes bytes) with
    | error f => simp [hread]
    | ok v => simp [hread, hvalue v]

theorem loadFile_breaks :
    (loadFile disk path).result = .error e ∧ e.path? = none ↔
      ∃ bytes f, disk.readAt path = .ok bytes ∧ Yaml.read (.ofBytes bytes) = .error f ∧
        f.isReported = false ∧ e = .broken f := by
  unfold loadFile
  split
  · next fault hfile =>
    simp only [Noted.fail, Except.error.injEq]
    constructor
    · rintro ⟨rfl, hpath⟩
      obtain ⟨f, rfl, hreported, hbroken⟩ := (path?_failure fault).1 hpath
      obtain ⟨bytes, hbytes, hread⟩ := ofFile_document.1 hfile
      exact ⟨bytes, f, hbytes, hread, hreported, hbroken⟩
    · rintro ⟨bytes, f, hbytes, hread, hreported, rfl⟩
      rw [ofFile_document.2 ⟨bytes, hbytes, hread⟩] at hfile
      obtain rfl := Except.error.inj hfile
      simp [FileFault.failure, hreported, LoadFailure.path?]
  · next c hfile =>
    constructor
    · rintro ⟨h, -⟩
      simp at h
    · rintro ⟨bytes, f, hbytes, hread, -, -⟩
      rw [ofFile_document.2 ⟨bytes, hbytes, hread⟩] at hfile
      simp at hfile

theorem loadGiven_breaks {wanted : String} :
    (loadGiven disk wanted).result = .error e ∧ e.path? = none ↔
      BreaksOff disk (some wanted) root e := by
  unfold loadGiven
  constructor
  · rintro ⟨h, hpath⟩
    split at h
    · next hloop =>
      obtain rfl := Except.error.inj h
      exact .loop hloop
    · obtain rfl := Except.error.inj h
      simp [LoadFailure.path?] at hpath
    · next place hplace =>
      simp only at h
      split at h
      · obtain rfl := Except.error.inj h
        simp [LoadFailure.path?] at hpath
      · obtain rfl := Except.error.inj h
        simp [LoadFailure.path?] at hpath
      · next hpresent =>
        obtain ⟨bytes, f, hbytes, hread, hreported, rfl⟩ := loadFile_breaks.1 ⟨h, hpath⟩
        exact .document (.asked hplace hpresent) hbytes hread hreported
  · intro h
    cases h with
    | loop hloop =>
      have hloop : disk.canonical wanted = _ := hloop
      rw [hloop]
      exact ⟨rfl, rfl⟩
    | rootFile hnone => simp at hnone
    | document hchosen hbytes hread hreported =>
      cases hchosen with
      | asked hplace hpresent =>
        rw [hplace]
        simp only [hpresent]
        exact loadFile_breaks.2 ⟨_, _, hbytes, hread, hreported, rfl⟩

theorem candidates_error :
    candidates disk root = .error e ↔
      ∃ path, disk.canonical root = .error (.loop path) ∧ e = .loop path := by
  unfold candidates
  split
  · next path hloop => simp [hloop, eq_comm]
  · next hnul => simp [hnul]
  · next place hplace =>
    simp only [hplace]
    split <;> simp

theorem candidates_of_isRoot {place : Location} (h : IsRoot disk root place) :
    candidates disk root = .ok (filesAt place) := by
  unfold candidates
  simp only [h.1, h.2]
  rfl

theorem root_of_candidates (h : candidates disk root = .ok paths)
    (hreached : Reached disk paths path) :
    ∃ place, IsRoot disk root place ∧ paths = filesAt place := by
  obtain ⟨before, after, rfl, -⟩ := hreached
  unfold candidates at h
  split at h
  · simp at h
  · simp at h
  · next place hplace =>
    split at h
    · next hdir => exact ⟨place, ⟨hplace, hdir⟩, (Except.ok.inj h).symm⟩
    · simp at h

theorem loadFound_of_absent {place : Location} (hroot : IsRoot disk root place)
    (habsent : ∀ path ∈ filesAt place, disk.isPresent path ≠ .ok true)
    (h : (loadFound disk root).result = .ok config) :
    config = default ∧ ∀ path ∈ filesAt place, disk.isPresent path = .ok false := by
  unfold loadFound at h
  rw [candidates_of_isRoot hroot] at h
  simp only at h
  split at h
  · simp [Noted.fail] at h
  · next path hfirst =>
    obtain ⟨⟨before, after, heq, -⟩, hpresent⟩ := firstPresent_some.1 hfirst
    exact absurd hpresent (habsent path (by simp [heq]))
  · next hfirst => exact ⟨(Except.ok.inj h).symm, firstPresent_none.1 hfirst⟩

theorem loadFound_of_reached {place : Location} (hroot : IsRoot disk root place)
    (hreached : Reached disk (filesAt place) path) (hpresent : disk.isPresent path = .ok true) :
    loadFound disk root = loadFile disk path := by
  unfold loadFound
  rw [candidates_of_isRoot hroot]
  simp only [firstPresent_some.2 ⟨hreached, hpresent⟩]

theorem loadFound_of_no_root (hloop : ∀ path, disk.canonical root ≠ .error (.loop path))
    (hroot : ∀ place, ¬ IsRoot disk root place) : (loadFound disk root).result = .ok default := by
  unfold loadFound
  split
  · next e h =>
    obtain ⟨path, hpath, -⟩ := candidates_error.1 h
    exact absurd hpath (hloop path)
  · next paths h =>
    cases paths with
    | nil => rfl
    | cons path rest =>
      obtain ⟨place, hplace, -⟩ := root_of_candidates h (reached_cons.2 (.inl rfl))
      exact absurd hplace (hroot place)

theorem loadFound_breaks :
    (loadFound disk root).result = .error e ∧ e.path? = none ↔ BreaksOff disk none root e := by
  unfold loadFound
  constructor
  · rintro ⟨h, hpath⟩
    split at h
    · next hcandidates =>
      obtain ⟨path, hloop, rfl⟩ := candidates_error.1 hcandidates
      obtain rfl := Except.error.inj h
      exact .loop hloop
    · next paths hcandidates =>
      split at h
      · next fault hfirst =>
        obtain ⟨path, hreached, hpresent⟩ := firstPresent_error.1 hfirst
        obtain ⟨place, hroot, rfl⟩ := root_of_candidates hcandidates hreached
        obtain ⟨hhides, f, hnode, rfl⟩ := Disk.holdsAt_error hpresent
        obtain rfl := Except.error.inj h
        refine .rootFile rfl hroot hreached hnode ?_
        rcases Disk.node_of_hides hhides with hf | hf
        · exact .inl (Except.error.inj (hnode.symm.trans hf))
        · exact .inr (Except.error.inj (hnode.symm.trans hf))
      · next path hfirst =>
        obtain ⟨hreached, hpresent⟩ := firstPresent_some.1 hfirst
        obtain ⟨place, hroot, rfl⟩ := root_of_candidates hcandidates hreached
        obtain ⟨bytes, f, hbytes, hread, hreported, rfl⟩ := loadFile_breaks.1 ⟨h, hpath⟩
        exact .document (.found hroot hreached hpresent) hbytes hread hreported
      · simp at h
  · intro h
    cases h with
    | loop hloop =>
      have hloop : disk.canonical root = _ := hloop
      rw [candidates_error.2 ⟨_, hloop, rfl⟩]
      exact ⟨rfl, rfl⟩
    | rootFile _ hroot hreached hnode hf =>
      have hpresent : disk.isPresent _ = .error _ :=
        Disk.holdsAt_of_fault hnode (by rcases hf with rfl | rfl <;> rfl)
      rw [candidates_of_isRoot hroot]
      simp only [firstPresent_error.2 ⟨_, hreached, hpresent⟩]
      exact ⟨rfl, rfl⟩
    | document hchosen hbytes hread hreported =>
      cases hchosen with
      | found hroot hreached hpresent =>
        rw [candidates_of_isRoot hroot]
        simp only [firstPresent_some.2 ⟨hreached, hpresent⟩]
        exact loadFile_breaks.2 ⟨_, _, hbytes, hread, hreported, rfl⟩

theorem load_breaks :
    (load disk given root).result = .error e ∧ e.path? = none ↔
      BreaksOff disk (wanted? given) root e := by
  rw [load_eq]
  cases wanted? given with
  | some wanted => exact loadGiven_breaks
  | none => exact loadFound_breaks

theorem BreaksOff.cause {wanted : Option String} (h : BreaksOff disk wanted root e) :
    (∃ path, e = .loop path ∧ disk.node path = .error .tooManyLinks ∧
      ∃ q target, disk.root.at? q = some (.link target)) ∨
    (∃ path f, e = .rootFile ⟨f, path⟩ ∧ disk.node path = .error f ∧
      (f = .denied ∨ f = .nameTooLong)) ∨
    ∃ path bytes f, e = .broken f ∧ disk.readAt path = .ok bytes ∧
      Yaml.read (.ofBytes bytes) = .error f ∧ f.isReported = false := by
  cases h with
  | loop hloop =>
    have hnode := Disk.canonical_loop hloop
    exact .inl ⟨_, rfl, hnode, Disk.exists_link_of_node hnode⟩
  | rootFile _ _ _ hnode hf => exact .inr (.inl ⟨_, _, rfl, hnode, hf⟩)
  | document _ hbytes hread hreported =>
    exact .inr (.inr ⟨_, _, _, rfl, hbytes, hread, hreported⟩)

/-- Loading ends with settings that have no fault or with a failure that is reported, unless it is
broken off, and exactly three things break it off. A root that is no directory breaks nothing off
unless its links have no end: the defaults are loaded. -/
theorem load_ends (disk : Disk) (given : Option String) (root : String) :
    ((∃ c, (load disk given root).result = .ok c ∧ c.fault? = none) ∨
      (∃ e path, (load disk given root).result = .error e ∧ e.path? = some path) ∨
      ∃ e, BreaksOff disk (wanted? given) root e) ∧
    (∀ e, BreaksOff disk (wanted? given) root e ↔
      (load disk given root).result = .error e ∧ e.path? = none) ∧
    (∀ e, BreaksOff disk (wanted? given) root e →
      (∃ path, e = .loop path ∧ disk.node path = .error .tooManyLinks ∧
        ∃ q target, disk.root.at? q = some (.link target)) ∨
      (∃ path f, e = .rootFile ⟨f, path⟩ ∧ disk.node path = .error f ∧
        (f = .denied ∨ f = .nameTooLong)) ∨
      ∃ path bytes f, e = .broken f ∧ disk.readAt path = .ok bytes ∧
        Yaml.read (.ofBytes bytes) = .error f ∧ f.isReported = false) ∧
    (wanted? given = none → (∀ path, disk.canonical root ≠ .error (.loop path)) →
      (∀ place, ¬ IsRoot disk root place) → (load disk given root).result = .ok default) := by
  refine ⟨?_, fun e => load_breaks.symm, fun e h => h.cause, fun hwanted hloop hroot => ?_⟩
  · cases hresult : (load disk given root).result with
    | ok c => exact .inl ⟨c, rfl, fault?_of_load hresult⟩
    | error e =>
      cases hpath : e.path? with
      | some path => exact .inr (.inl ⟨e, path, rfl, hpath⟩)
      | none => exact .inr (.inr ⟨e, load_breaks.1 ⟨hresult, hpath⟩⟩)
  · rw [load_eq, hwanted]
    exact loadFound_of_no_root hloop hroot

-- A root in which names cannot be looked up breaks the loading off before any file is opened.
example : (load ⟨.directory [("a", .directory [] { search := false })] .full, []⟩ none "a").result =
    .error (.rootFile ⟨.denied, "/a/.keyhunter.yml"⟩) := rfl

def circleDisk : Disk :=
  ⟨.directory [("ROOT", .directory [("a", .link "b"), ("b", .link "a")] .full)] .full, ["ROOT"]⟩

theorem load_ends_circle :
    (load circleDisk none "../gone").result = .ok default ∧
    BreaksOff circleDisk none "a" (.loop "/ROOT/a") ∧
    circleDisk.node "/ROOT/a" = .error .tooManyLinks := by
  have hplace : circleDisk.canonical "../gone" = .ok ["gone"] := rfl
  obtain ⟨-, -, -, hdefault⟩ := load_ends circleDisk none "../gone"
  obtain ⟨-, hbreaks, hcause, -⟩ := load_ends circleDisk none "a"
  have hloop : BreaksOff circleDisk none "a" (.loop "/ROOT/a") := (hbreaks _).2 ⟨rfl, rfl⟩
  refine ⟨hdefault rfl ?_ ?_, hloop, ?_⟩
  · intro path hpath
    rw [hplace] at hpath
    cases hpath
  · rintro place ⟨hroot, hdirectory⟩
    obtain rfl := Except.ok.inj (hplace.symm.trans hroot)
    cases hdirectory
  · obtain ⟨path, heq, hnode, -⟩ | ⟨path, f, heq, -⟩ | ⟨path, bytes, f, heq, -⟩ := hcause _ hloop
    · cases heq
      exact hnode
    · cases heq
    · cases heq

/-- A root that is a link without end breaks the loading off, though no file is asked for. -/
theorem circle_breaks_off :
    (load circleDisk none "a").result = .error (.loop "/ROOT/a") ∧
    (LoadFailure.loop "/ROOT/a").path? = none := ⟨rfl, rfl⟩

end Config

end LeakScan
