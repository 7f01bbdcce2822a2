import LeakScan.Proofs.Disk.Names
import LeakScan.Proofs.Walk.Happens
import Mathlib.Data.List.Infix

namespace LeakScan.Walk

/-- The text by which the system knows a place below a root. -/
def pathBelow (root : String) (place : Location) : String := place.foldl Path.below root

/-- A real directory whose entries can be had: it can be read, and looked up where it stands. -/
def Listable (root : String) (top : Node) (q : Location) : Prop :=
  ∃ entries access, top.at? q = some (.directory entries access) ∧ access.read = true ∧
    (q ≠ [] → top.searchableAt q.dropLast = true) ∧
    (pathBelow root q).utf8ByteSize ≤ Disk.pathLimit

/-- A walk opens the directory at a place: this one and all above it can be listed, and no name on
the way is left out. The name of the root is not asked for. -/
structure Opened (skips : Config.Skips) (root : String) (top : Node) (d : Location) : Prop where
  listable : ∀ q, q <+: d → Listable root top q
  kept : ∀ name ∈ d, name ∉ skips.dirs

/-- A directory that a walk comes to and cannot list. -/
def Unlistable (skips : Config.Skips) (root : String) (top : Node) (p : Location) : Prop :=
  (∃ entries access, top.at? p = some (.directory entries access)) ∧ ¬ Listable root top p ∧
    (p = [] ∨ ∃ d name, p = d ++ [name] ∧ Opened skips root top d ∧ name ∉ skips.dirs)

def LeadsToDirectory (disk : Disk) (root : String) (d : Location) (name : String) : Prop :=
  ∃ entries access,
    disk.node (Path.listed (pathBelow root d) name) = .ok (.directory entries access)

/-- A regular file, or a link that does not lead to a directory, in an opened directory and with a
suffix that is not left out. -/
def Eligible (disk : Disk) (skips : Config.Skips) (root : String) (top : Node) (p : Location) :
    Prop :=
  ∃ d name, p = d ++ [name] ∧ Opened skips root top d ∧
    ((∃ bytes access, top.at? p = some (.file bytes access)) ∨
      ∃ target, top.at? p = some (.link target) ∧ ¬ LeadsToDirectory disk root d name) ∧
    ∃ s, Path.IsSuffix name s ∧ Text.lower s ∉ skips.extensions

/-- A link in an opened directory that cannot be followed, with what the system says of it. That
nothing stands where it leads to is no such case. -/
def Obstructs (disk : Disk) (skips : Config.Skips) (root : String) (top : Node) (p : Location)
    (e : PathError) : Prop :=
  ∃ d name target, p = d ++ [name] ∧ Opened skips root top d ∧ top.at? p = some (.link target) ∧
    e.path = Path.listed (pathBelow root d) name ∧ disk.node e.path = .error e.fault ∧
    e.fault ≠ .noEntry

variable {disk : Disk} {skips : Config.Skips} {root : String} {entries : List (String × Node)}
  {access : Access} {n top : Node} {name : String} {d p q : Location} {s : Step}

theorem searchableAt_nil : Node.searchableAt (.directory entries access) [] = access.search := rfl

theorem searchableAt_cons (hchild : Node.child? entries name = some n) :
    Node.searchableAt (.directory entries access) (name :: q) = n.searchableAt q := by
  simp [Node.searchableAt, Node.at?_cons, hchild]

theorem listable_cons (hchild : Node.child? entries name = some n) :
    Listable root (.directory entries access) (name :: q) ↔
      (q = [] → access.search = true) ∧ Listable (Path.below root name) n q := by
  cases q with
  | nil =>
    simp only [Listable, Node.at?_cons, hchild, Option.bind_some, pathBelow, List.dropLast_singleton,
      searchableAt_nil, List.foldl_cons, forall_const, ne_eq, not_true_eq_false, false_implies,
      true_and, reduceCtorEq, not_false_eq_true]
    tauto
  | cons c q =>
    simp [Listable, Node.at?_cons, hchild, pathBelow, searchableAt_cons hchild]

theorem listable_nil : Listable root top [] ↔
    (∃ entries access, top = .directory entries access ∧ access.read = true) ∧
      root.utf8ByteSize ≤ Disk.pathLimit := by
  simp only [Listable, pathBelow, Node.at?_nil, Option.some.injEq, ne_eq, not_true_eq_false,
    false_implies, true_and, List.foldl_nil]
  exact ⟨fun ⟨entries, access, htop, hread, hsize⟩ => ⟨⟨entries, access, htop, hread⟩, hsize⟩,
    fun ⟨⟨entries, access, htop, hread⟩, hsize⟩ => ⟨entries, access, htop, hread, hsize⟩⟩

theorem listingFault?_none {path : String} {searchable : Bool} :
    listingFault? path searchable access = none ↔
      searchable = true ∧ access.read = true ∧ path.utf8ByteSize ≤ Disk.pathLimit := by
  unfold listingFault?
  split
  · next hsize => simp [Nat.not_le.2 hsize]
  · next hsize =>
    cases searchable <;> cases access.read <;> simp [Nat.le_of_not_lt hsize]

/-- Whether the entry of a directory can be listed is told by its access and by that of the
directory. -/
theorem listable_concat (hat : top.at? (d ++ [name]) = some (.directory entries access)) :
    Listable root top (d ++ [name]) ↔
      listingFault? (pathBelow root (d ++ [name])) (top.searchableAt d) access = none := by
  rw [listingFault?_none]
  constructor
  · rintro ⟨inner, access', hinner, hread, hsearch, hsize⟩
    rw [hat] at hinner
    obtain ⟨rfl, rfl⟩ := Node.directory.inj (Option.some.inj hinner)
    have hsearch := hsearch (by simp)
    rw [List.dropLast_concat] at hsearch
    exact ⟨hsearch, hread, hsize⟩
  · rintro ⟨hsearch, hread, hsize⟩
    refine ⟨entries, access, hat, hread, fun _ => ?_, hsize⟩
    rwa [List.dropLast_concat]

theorem opened_nil : Opened skips root top [] ↔ Listable root top [] := by
  constructor
  · exact fun h => h.listable [] List.nil_prefix
  · refine fun h => ⟨fun q hq => ?_, by simp⟩
    rwa [List.prefix_nil.1 hq]

theorem opened_cons (hchild : Node.child? entries name = some n) :
    Opened skips root (.directory entries access) (name :: d) ↔
      Listable root (.directory entries access) [] ∧ access.search = true ∧ name ∉ skips.dirs ∧
        Opened skips (Path.below root name) n d := by
  constructor
  · intro h
    have hbelow (q : Location) (hq : q <+: d) :=
      (listable_cons hchild).1 (h.listable (name :: q) (List.cons_prefix_cons.2 ⟨rfl, hq⟩))
    exact ⟨h.listable [] List.nil_prefix, (hbelow [] List.nil_prefix).1 rfl,
      h.kept name List.mem_cons_self, fun q hq => (hbelow q hq).2,
      fun c hc => h.kept c (List.mem_cons_of_mem _ hc)⟩
  · rintro ⟨hroot, hsearch, hname, hd⟩
    refine ⟨fun q hq => ?_, ?_⟩
    · rcases List.prefix_cons_iff.1 hq with rfl | ⟨r, rfl, hr⟩
      · exact hroot
      · exact (listable_cons hchild).2 ⟨fun _ => hsearch, hd.listable r hr⟩
    · intro c hc
      rcases List.mem_cons.1 hc with rfl | hc
      · exact hname
      · exact hd.kept c hc

theorem Opened.child (h : Opened skips root (.directory entries access) (name :: d)) :
    ∃ inner w, Node.child? entries name = some (.directory inner w) := by
  obtain ⟨inner, w, hat, -⟩ := h.listable [name] (List.cons_prefix_cons.2 ⟨rfl, List.nil_prefix⟩)
  rw [Node.at?_cons] at hat
  obtain ⟨k, hk, hinner⟩ := Option.bind_eq_some_iff.1 hat
  rw [Node.at?_nil] at hinner
  exact ⟨inner, w, Option.some.inj hinner ▸ hk⟩

theorem happens_iff {relative : Location} (hwf : Node.WellFormed (.directory entries access))
    (hroot : Listable root (.directory entries access) []) :
    Happens disk skips access.search root relative entries q s ↔
      ∃ d name n, q = d ++ [name] ∧ Opened skips root (.directory entries access) d ∧
        Node.at? (.directory entries access) q = some n ∧
        ownStep? disk skips (Node.searchableAt (.directory entries access) d) name
          (Path.listed (pathBelow root d) name) (pathBelow root q) (relative ++ q) n = some s := by
  -- There the induction is on how the step came about, back it is on the directories on the way.
  constructor
  · intro h
    generalize hsearch : access.search = searchable at h
    induction h generalizing access with
    | @here _ directory relative entries name n s hmem hs =>
      have hchild := Node.child?_of_mem hwf.directory_nodup hmem
      refine ⟨[], name, n, rfl, opened_nil.2 hroot, by simp [Node.at?_cons, hchild], ?_⟩
      rw [searchableAt_nil, hsearch]
      exact hs
    | @deeper _ directory relative entries inner name w place s hmem hname hlist _ ih =>
      have hchild := Node.child?_of_mem hwf.directory_nodup hmem
      obtain ⟨hup, hread, hsize⟩ := listingFault?_none.1 hlist
      have hinner : Listable (Path.below directory name) (.directory inner w) [] :=
        listable_nil.2 ⟨⟨inner, w, rfl, hread⟩, hsize⟩
      obtain ⟨d, c, n, rfl, hd, hat, hs⟩ := ih (hwf.entry hmem) hinner rfl
      refine ⟨name :: d, c, n, rfl, (opened_cons hchild).2 ⟨hroot, hsearch.trans hup, hname, hd⟩,
        ?_, ?_⟩
      · rw [Node.at?_cons, hchild]
        exact hat
      · rw [List.append_assoc] at hs
        rw [searchableAt_cons hchild]
        exact hs
  · rintro ⟨d, name, n, rfl, hd, hat, hs⟩
    induction d generalizing root relative entries access with
    | nil =>
      rw [List.nil_append, Node.at?_cons] at hat
      obtain ⟨k, hk, hn⟩ := Option.bind_eq_some_iff.1 hat
      rw [Node.at?_nil] at hn
      exact .here (Node.mem_of_child? (Option.some.inj hn ▸ hk)) hs
    | cons c d ih =>
      obtain ⟨inner, w, hchild⟩ := hd.child
      have hmem := Node.mem_of_child? hchild
      obtain ⟨-, hsearch, hc, hbelow⟩ := (opened_cons hchild).1 hd
      have hinner := hbelow.listable [] List.nil_prefix
      obtain ⟨⟨_, _, heq, hread⟩, hsize⟩ := listable_nil.1 hinner
      cases heq
      rw [List.cons_append, Node.at?_cons, hchild] at hat
      rw [searchableAt_cons hchild] at hs
      refine .deeper hmem hc (listingFault?_none.2 ⟨hsearch, hread, hsize⟩) ?_
      refine ih (hwf.entry hmem) hinner hbelow hat ?_
      rw [List.append_assoc]
      exact hs

theorem rootHappens_iff (hroot : disk.node root = .ok (.directory entries access))
    (hwf : Node.WellFormed (.directory entries access)) :
    RootHappens disk skips root entries access q s ↔
      (access.read = false ∧ q = [] ∧
        .ok (.unlisted root (relativeText []) ⟨.denied, root⟩) = s) ∨
      ∃ d name n, q = d ++ [name] ∧ Opened skips root (.directory entries access) d ∧
        Node.at? (.directory entries access) q = some n ∧
        ownStep? disk skips (Node.searchableAt (.directory entries access) d) name
          (Path.listed (pathBelow root d) name) (pathBelow root q) q n = some s := by
  have hsize := Disk.size_le_of_node hroot
  cases hread : access.read with
  | true =>
    simp only [RootHappens, hread, if_true, reduceCtorEq, false_and, false_or]
    exact happens_iff hwf (listable_nil.2 ⟨⟨entries, access, rfl, hread⟩, hsize⟩)
  | false =>
    simp only [RootHappens, hread, Bool.false_eq_true, if_false, true_and]
    constructor
    · exact .inl
    · rintro (h | ⟨d, -, -, -, hd, -⟩)
      · exact h
      · obtain ⟨⟨_, _, heq, hopen⟩, -⟩ := listable_nil.1 (hd.listable [] List.nil_prefix)
        cases heq
        rw [hread] at hopen
        cases hopen

end LeakScan.Walk
