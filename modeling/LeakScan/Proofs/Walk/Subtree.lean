import LeakScan.Proofs.Walk.Under

namespace LeakScan

/-- No name in the tree is longer than a directory can hold. -/
def Node.Fits (top : Node) : Prop :=
  ∀ p n, top.at? p = some n → ∀ name ∈ p, name.utf8ByteSize ≤ Disk.nameLimit

namespace Walk

variable {disk : Disk} {skips : Config.Skips} {root name : String} {n top : Node}
  {entries inner : List (String × Node)} {access w : Access} {p q : Location}

theorem fits_child (h : Node.Fits (.directory entries access))
    (hchild : Node.child? entries name = some n) :
    name.utf8ByteSize ≤ Disk.nameLimit ∧ n.Fits := by
  constructor
  · refine h [name] n ?_ name (by simp)
    rw [Node.at?_cons, hchild]
    exact Node.at?_nil
  · intro p k hat c hc
    refine h (name :: p) k ?_ c (List.mem_cons_of_mem _ hc)
    rw [Node.at?_cons, hchild]
    exact hat

theorem fits_file (bytes : List UInt8) (w : Access) : Node.Fits (.file bytes w) := by
  intro p n hat c hc
  cases p with
  | nil => simp at hc
  | cons name p => simp [Node.at?] at hat

theorem fits_directory (h : ∀ e ∈ entries, e.1.utf8ByteSize ≤ Disk.nameLimit ∧ e.2.Fits) :
    Node.Fits (.directory entries access) := by
  intro p n hat c hc
  cases p with
  | nil => simp at hc
  | cons name p =>
    rw [Node.at?_cons] at hat
    obtain ⟨k, hk, hn⟩ := Option.bind_eq_some_iff.1 hat
    obtain ⟨hname, hfits⟩ := h _ (Node.mem_of_child? hk)
    rcases List.mem_cons.1 hc with rfl | hc
    · exact hname
    · exact hfits p n hn c hc

/-- A directory below the root that a walk comes to, whether it can be listed or not. -/
def Reached (skips : Config.Skips) (root : String) (top : Node) (p : Location) : Prop :=
  (∃ inner w, top.at? p = some (.directory inner w)) ∧
    ∃ d name, p = d ++ [name] ∧ Opened skips root top d ∧ name ∉ skips.dirs

def entryWalk (disk : Disk) (skips : Config.Skips) (searchable : Bool) (root : String)
    (e : String × Node) : Walk :=
  walkEntry disk skips searchable e.1 (Path.listed root e.1) (Path.below root e.1) [e.1] e.2

def byName (entries : List (String × Node)) : List (String × Node) :=
  entries.mergeSort fun a b => a.1 ≤ b.1

theorem mem_byName {e : String × Node} : e ∈ byName entries ↔ e ∈ entries := List.mem_mergeSort

theorem reached_cons {rest : Location}
    (h : Reached skips root (.directory entries access) (name :: rest)) :
    access.read = true ∧ name ∉ skips.dirs ∧
      ∃ inner w, Node.child? entries name = some (.directory inner w) ∧
        (rest ≠ [] → access.search = true ∧
          (Path.below root name).utf8ByteSize ≤ Disk.pathLimit ∧
          Reached skips (Path.below root name) (.directory inner w) rest) := by
  obtain ⟨⟨inner, w, hat⟩, d, last, heq, hd, hlast⟩ := h
  rw [Node.at?_cons] at hat
  obtain ⟨k, hchild, hk⟩ := Option.bind_eq_some_iff.1 hat
  obtain ⟨⟨_, _, htop, hread⟩, -⟩ := listable_nil.1 (hd.listable [] List.nil_prefix)
  cases htop
  cases d with
  | nil =>
    obtain ⟨rfl, rfl⟩ := List.cons.inj heq
    rw [Node.at?_nil] at hk
    exact ⟨hread, hlast, inner, w, hchild.trans hk, fun h => absurd rfl h⟩
  | cons c d =>
    obtain ⟨rfl, rfl⟩ := List.cons.inj heq
    obtain ⟨-, hsearch, hname, hbelow⟩ := (opened_cons hchild).1 hd
    obtain ⟨⟨below, v, rfl, -⟩, hsize⟩ := listable_nil.1 (hbelow.listable [] List.nil_prefix)
    exact ⟨hread, hname, below, v, hchild, fun _ =>
      ⟨hsearch, hsize, ⟨inner, w, hk⟩, d, last, rfl, hbelow, hlast⟩⟩

theorem Reached.names (h : Reached skips root top p) (hwf : top.WellFormed) :
    p ≠ [] ∧ ∀ c ∈ p, Node.IsName c := by
  obtain ⟨⟨_, _, hat⟩, d, name, rfl, -⟩ := h
  exact ⟨by simp, hwf.isName_of_at? hat⟩

theorem at_of_happens {v : Visit} (hroot : disk.node root = .ok (.directory entries access))
    (hwf : Node.WellFormed (.directory entries access))
    (hv : RootHappens disk skips root entries access q (.ok v)) : v.At q := by
  cases v with
  | document path doc =>
    obtain ⟨⟨d, name, rfl, -, hkind, -⟩, -, rfl⟩ := (document_happens_iff hroot hwf).1 hv
    have hat : ∃ k, Node.at? (.directory entries access) (d ++ [name]) = some k := by
      rcases hkind with ⟨_, _, hat⟩ | ⟨_, hat, -⟩
      · exact ⟨_, hat⟩
      · exact ⟨_, hat⟩
    obtain ⟨k, hat⟩ := hat
    exact ⟨hwf.isName_of_at? hat, path_documentAt _ _ _, fun _ _ => by simp⟩
  | unlisted path relative e =>
    obtain ⟨⟨⟨_, _, hat⟩, -⟩, -, rfl, -⟩ := (unlisted_happens_iff hroot hwf).1 hv
    exact ⟨hwf.isName_of_at? hat, rfl, fun _ h => by simp [Visit.document?] at h⟩

theorem at_of_walk {v : Visit} (hdisk : disk.root.WellFormed)
    (hv : v ∈ (walk disk skips root).visits) : ∃ q, v.At q := by
  have htop (path : String) (e : PathError) :
      (Visit.unlisted path (relativeText []) e).At [] :=
    ⟨by simp, rfl, fun _ h => by simp [Visit.document?] at h⟩
  cases hroot : disk.node root with
  | error f =>
    rw [walk_of_error hroot] at hv
    split at hv
    · simp [stop] at hv
    · rw [List.mem_singleton.1 hv]
      exact ⟨[], htop _ _⟩
  | ok n =>
    cases n with
    | directory entries access =>
      have hwf := Disk.wellFormed_node hdisk hroot
      have htraces : Traces (RootHappens disk skips root entries access)
          (walk disk skips root) := traces_walk hroot hwf
      obtain ⟨met, -, hR, -, hvisits⟩ := htraces.visited
      rw [hvisits] at hv
      obtain ⟨⟨q, v⟩, hqv, rfl⟩ := List.mem_map.1 hv
      exact ⟨q, at_of_happens hroot hwf (hR q v hqv)⟩
    | file _ _ | link _ | pipe =>
      rw [walk_of_not_directory hroot rfl] at hv
      rw [List.mem_singleton.1 hv]
      exact ⟨[], htop _ _⟩

theorem append_completed {a b : Walk} (h : (a.append b).stopped = none) :
    a.stopped = none ∧ b.stopped = none ∧ (a.append b).visits = a.visits ++ b.visits := by
  rcases a with ⟨va, _ | e⟩
  · exact ⟨rfl, h, rfl⟩
  · simp [append] at h

theorem foldr_completed {α : Type} {walkOf : α → Walk} {items : List α}
    (h : (items.foldr (fun a rest => (walkOf a).append rest) nothing).stopped = none) :
    (∀ a ∈ items, (walkOf a).stopped = none) ∧
      (items.foldr (fun a rest => (walkOf a).append rest) nothing).visits =
        items.flatMap fun a => (walkOf a).visits := by
  induction items with
  | nil => exact ⟨by simp, rfl⟩
  | cons a items ih =>
    obtain ⟨he, hrest, hvisits⟩ := append_completed h
    obtain ⟨hstopped, hflat⟩ := ih hrest
    refine ⟨List.forall_mem_cons.2 ⟨he, hstopped⟩, ?_⟩
    rw [List.foldr_cons, hvisits, hflat, List.flatMap_cons]

section Root

variable (hroot : disk.node root = .ok (.directory entries access)) (hread : access.read = true)

include hroot hread

theorem walk_eq_inOrder : walk disk skips root =
    inOrder (entries.map fun e => (e.1, entryWalk disk skips access.search root e)) := by
  rw [walk_of_readable hroot hread, walkEntries_eq_map]
  rfl

theorem visits_of_completed (hdone : (walk disk skips root).stopped = none) :
    (∀ e ∈ entries, (entryWalk disk skips access.search root e).stopped = none) ∧
      (walk disk skips root).visits =
        (byName entries).flatMap fun e => (entryWalk disk skips access.search root e).visits := by
  rw [walk_eq_inOrder hroot hread, inOrder_map] at hdone ⊢
  obtain ⟨hstopped, hvisits⟩ := foldr_completed hdone
  exact ⟨fun e he => hstopped e (mem_byName.2 he), hvisits⟩

end Root

section Fits

variable (hroot : disk.node root = .ok (.directory entries access))
  (hwf : Node.WellFormed (.directory entries access))
  (hfits : Node.Fits (.directory entries access))

include hroot hwf hfits

/-- The path of an entry leads to it, if it is no link, the path is not too long and names can be
looked up in the root. -/
theorem node_below (hchild : Node.child? entries name = some n)
    (hn : ∀ target, n ≠ .link target) :
    disk.node (Path.below root name) =
      if Disk.pathLimit < (Path.below root name).utf8ByteSize then .error .nameTooLong
      else if !access.search then .error .denied
      else .ok n := by
  obtain ⟨place, hplace⟩ := Disk.locate_of_node hroot
  have hname := hwf.isName (Node.mem_of_child? hchild)
  have hsize := (fits_child hfits hchild).1
  rw [Disk.node, Disk.locate_below hname hplace hchild hn, if_neg (Nat.not_lt.2 hsize)]
  by_cases hpath : Disk.pathLimit < (Path.below root name).utf8ByteSize
  · simp [hpath]
  · cases access.search <;> simp [hpath]

theorem entryWalk_directory (hchild : Node.child? entries name = some (.directory inner w))
    (hname : name ∉ skips.dirs) :
    entryWalk disk skips access.search root (name, .directory inner w) =
      (walk disk skips (Path.below root name)).under [name] :=
  walkEntry_directory (by simp) hname (hwf.entry (Node.mem_of_child? hchild))
    (node_below hroot hwf hfits hchild (by simp))

/-- What the walk of an entry meets is shown at the name of the entry, or below it if the entry is a
directory. -/
theorem at_of_entryWalk (hdisk : disk.root.WellFormed) {e : String × Node} (he : e ∈ entries)
    {v : Visit} (hv : v ∈ (entryWalk disk skips access.search root e).visits) :
    ∃ q, v.At (e.1 :: q) ∧ (e.2.isDirectory = false → q = []) := by
  obtain ⟨name, n⟩ := e
  have hname := hwf.isName he
  have hfile (path : String) (hv : v ∈ (walkFile disk skips name path [name]).visits) :
      v.At [name] := by
    unfold walkFile at hv
    split at hv
    · simp [nothing] at hv
    · rw [List.mem_singleton.1 hv]
      exact ⟨by simpa using hname, path_documentAt _ _ _, fun _ _ => by simp⟩
  cases n with
  | file bytes access =>
    rw [entryWalk, walkEntry] at hv
    exact ⟨[], hfile _ hv, fun _ => rfl⟩
  | directory inner w =>
    by_cases hskip : name ∈ skips.dirs
    · rw [entryWalk, walkEntry, if_pos hskip] at hv
      simp [nothing] at hv
    · rw [entryWalk_directory hroot hwf hfits (Node.child?_of_mem hwf.directory_nodup he) hskip,
        under] at hv
      obtain ⟨v', hv', rfl⟩ := List.mem_map.1 hv
      obtain ⟨q, hq⟩ := at_of_walk hdisk hv'
      exact ⟨q, hq.under (by simp) (by simpa using hname), fun h => by simp [Node.isDirectory] at h⟩
  | link target =>
    rw [entryWalk, walkEntry] at hv
    split at hv
    · simp [stop] at hv
    · simp [nothing] at hv
    · exact ⟨[], hfile _ hv, fun _ => rfl⟩
  | pipe =>
    rw [entryWalk, walkEntry] at hv
    simp [nothing] at hv

end Fits

theorem filter_flatMap_block {α β : Type} {key : α → String} {items : List α} {block : α → List β}
    {keep : β → Bool} {a : α} (ha : a ∈ items) (hnodup : (items.map key).Nodup)
    (hkeep : ∀ c ∈ items, ∀ b ∈ block c, keep b = true ↔ key c = key a) :
    (items.flatMap block).filter keep = block a := by
  obtain ⟨before, after, rfl⟩ := List.append_of_mem ha
  have hother (cs : List α) (hsub : ∀ c ∈ cs, c ∈ before ++ a :: after)
      (hne : ∀ c ∈ cs, key c ≠ key a) : (cs.flatMap block).filter keep = [] := by
    refine List.filter_eq_nil_iff.2 fun b hb => ?_
    obtain ⟨c, hc, hb⟩ := List.mem_flatMap.1 hb
    exact fun h => hne c hc ((hkeep c (hsub c hc) b hb).1 h)
  rw [List.map_append, List.map_cons, List.nodup_middle, List.nodup_cons, List.mem_append] at hnodup
  have hblock : (block a).filter keep = block a :=
    List.filter_eq_self.2 fun b hb => (hkeep a ha b hb).2 rfl
  rw [List.flatMap_append, List.flatMap_cons, List.filter_append, List.filter_append, hblock,
    hother before (fun c hc => List.mem_append_left _ hc)
      fun c hc heq => hnodup.1 (.inl (heq ▸ List.mem_map_of_mem hc)),
    hother after (fun c hc => List.mem_append_right _ (List.mem_cons_of_mem _ hc))
      fun c hc heq => hnodup.1 (.inr (heq ▸ List.mem_map_of_mem hc))]
  simp

theorem nodup_byName (hwf : Node.WellFormed (.directory entries access)) :
    ((byName entries).map (·.1)).Nodup :=
  ((List.mergeSort_perm entries _).map _).nodup_iff.2 hwf.directory_nodup

/-- The place of a visit, from the text that shows it. -/
def placeOf (v : Visit) : Location := Path.names v.relative

theorem isPrefixOf_placeOf_under {v : Visit} {rest : Location} (hv : v.At q)
    (hname : Node.IsName name) :
    (name :: rest).isPrefixOf (placeOf (v.under [name])) = rest.isPrefixOf (placeOf v) := by
  have hunder := hv.under (p := [name]) (by simp) (by simpa using hname)
  rw [placeOf, placeOf, hunder.place, hv.place]
  simp

/-- What a walk that is not stopped meets at and below an entry is what the walk of this entry
meets. -/
theorem visits_entry (hdisk : disk.root.WellFormed)
    (hroot : disk.node root = .ok (.directory entries access)) (hread : access.read = true)
    (hfits : Node.Fits (.directory entries access))
    (hdone : (walk disk skips root).stopped = none)
    (hchild : Node.child? entries name = some (.directory inner w)) (hname : name ∉ skips.dirs) :
    (walk disk skips (Path.below root name)).stopped = none ∧
      (walk disk skips root).visits.filter (fun v => [name].isPrefixOf (placeOf v)) =
        (walk disk skips (Path.below root name)).visits.map (Visit.under [name]) := by
  have hwf := Disk.wellFormed_node hdisk hroot
  obtain ⟨hstopped, hvisits⟩ := visits_of_completed hroot hread hdone
  have hmem := Node.mem_of_child? hchild
  have hentry := entryWalk_directory hroot hwf hfits hchild hname
  refine ⟨(congrArg stopped hentry).symm.trans (hstopped _ hmem), ?_⟩
  rw [hvisits, filter_flatMap_block (mem_byName.2 hmem) (nodup_byName hwf), hentry]
  · rfl
  · intro e he v hv
    obtain ⟨q, hq, -⟩ := at_of_entryWalk hroot hwf hfits hdisk (mem_byName.1 he) hv
    rw [placeOf, hq.place, List.isPrefixOf_iff_prefix, List.cons_prefix_cons]
    exact ⟨fun h => h.1.symm, fun h => ⟨h.symm, List.nil_prefix⟩⟩

/-- A walk that is not stopped meets, at and below a directory that it comes to, just what the walk
of this directory meets. -/
theorem visits_below (hdisk : disk.root.WellFormed) (hp : p ≠ [])
    (hroot : disk.node root = .ok (.directory entries access))
    (hfits : Node.Fits (.directory entries access))
    (hdone : (walk disk skips root).stopped = none)
    (hreached : Reached skips root (.directory entries access) p) :
    (walk disk skips (pathBelow root p)).stopped = none ∧
      (walk disk skips root).visits.filter (fun v => p.isPrefixOf (placeOf v)) =
        (walk disk skips (pathBelow root p)).visits.map (Visit.under p) := by
  -- One step down is a block of the walk, and the blocks are nested.
  induction p generalizing root entries access with
  | nil => exact absurd rfl hp
  | cons name rest ih =>
    obtain ⟨hread, hname, inner, w, hchild, hrest⟩ := reached_cons hreached
    obtain ⟨hinner, hblock⟩ := visits_entry hdisk hroot hread hfits hdone hchild hname
    by_cases hnil : rest = []
    · subst hnil
      exact ⟨hinner, hblock⟩
    · have hwf := Disk.wellFormed_node hdisk hroot
      have hmem := Node.mem_of_child? hchild
      obtain ⟨hsearch, hsize, hbelow⟩ := hrest hnil
      have hnode : disk.node (Path.below root name) = .ok (.directory inner w) := by
        rw [node_below hroot hwf hfits hchild (by simp), if_neg (Nat.not_lt.2 hsize), hsearch]
        rfl
      obtain ⟨hdone', hvisits'⟩ := ih hnil hnode (fits_child hfits hchild).2 hinner hbelow
      refine ⟨hdone', ?_⟩
      obtain ⟨-, hnames⟩ := hbelow.names (hwf.entry hmem)
      calc (walk disk skips root).visits.filter (fun v => (name :: rest).isPrefixOf (placeOf v))
          = ((walk disk skips root).visits.filter fun v => [name].isPrefixOf (placeOf v)).filter
              fun v => (name :: rest).isPrefixOf (placeOf v) := by
            rw [List.filter_filter]
            refine List.filter_congr fun v _ => ?_
            cases placeOf v <;> simp +contextual
        _ = (((walk disk skips (Path.below root name)).visits.filter
              fun v => rest.isPrefixOf (placeOf v)).map (Visit.under [name])) := by
            rw [hblock, List.filter_map]
            refine congrArg _ (List.filter_congr fun v hv => ?_)
            obtain ⟨q, hq⟩ := at_of_walk hdisk hv
            exact isPrefixOf_placeOf_under hq (hwf.isName hmem)
        _ = (walk disk skips (pathBelow root (name :: rest))).visits.map
              (Visit.under (name :: rest)) := by
            rw [hvisits', List.map_map]
            exact List.map_congr_left fun v _ => Visit.under_under v (by simp) hnil hnames

theorem filter_filterMap_congr {α β : Type} {l : List α} {g : α → Option β} {keep' : β → Bool}
    (keep : α → Bool) (h : ∀ a ∈ l, ∀ b, g a = some b → keep' b = keep a) :
    (l.filterMap g).filter keep' = (l.filter keep).filterMap g := by
  rw [List.filter_filterMap, List.filterMap_filter]
  refine List.filterMap_congr fun a ha => ?_
  cases hg : g a with
  | none => simp
  | some b => simp [Option.filter, h a ha b hg]

theorem documents_under (p : Location) (w : Walk) :
    (w.under p).documents = w.documents.map (Document.under p) := by
  rw [documents, under, List.filterMap_map, documents, List.map_filterMap]
  congr 1
  funext v
  cases v <;> rfl

section Below

variable (hdisk : disk.root.WellFormed)
  (hroot : disk.node root = .ok (.directory entries access))
  (hfits : Node.Fits (.directory entries access))
  (hdone : (walk disk skips root).stopped = none)
  (hreached : Reached skips root (.directory entries access) p)

include hdisk hroot hfits hdone hreached

theorem ne_of_document {v : Visit} {d : Document} (hv : v ∈ (walk disk skips root).visits)
    (hd : v.document? = some d) : placeOf v ≠ p := by
  obtain ⟨hp, hpn⟩ := hreached.names (Disk.wellFormed_node hdisk hroot)
  obtain ⟨-, hvisits⟩ := visits_below hdisk hp hroot hfits hdone hreached
  intro heq
  have hmem : v ∈ (walk disk skips root).visits.filter fun v => p.isPrefixOf (placeOf v) := by
    refine List.mem_filter.2 ⟨hv, ?_⟩
    rw [heq, List.isPrefixOf_iff_prefix]
  rw [hvisits] at hmem
  obtain ⟨v', hv', rfl⟩ := List.mem_map.1 hmem
  obtain ⟨q, hq⟩ := at_of_walk hdisk hv'
  rw [placeOf, (hq.under hp hpn).place] at heq
  cases v' with
  | document path doc => exact hq.ne_nil doc rfl (by simpa using heq)
  | unlisted path relative e => simp [Visit.under, Visit.document?] at hd

theorem documents_below :
    (walk disk skips root).documents.filter (fun d => isBelow p d.path) =
      (walk disk skips (pathBelow root p)).documents.map (Document.under p) := by
  obtain ⟨hp, hpn⟩ := hreached.names (Disk.wellFormed_node hdisk hroot)
  obtain ⟨-, hvisits⟩ := visits_below hdisk hp hroot hfits hdone hreached
  rw [documents, filter_filterMap_congr fun v => p.isPrefixOf (placeOf v), hvisits]
  · exact documents_under p _
  · intro v hv d hd
    obtain ⟨q, hq⟩ := at_of_walk hdisk hv
    have hne := ne_of_document hdisk hroot hfits hdone hreached hv hd
    rw [placeOf, hq.place] at hne
    rw [← Visit.relative_of_document? hd, placeOf, hq.place, hq.relative, Bool.eq_iff_iff,
      isBelow_relativeText hp hpn hq.names, List.isPrefixOf_iff_prefix, and_iff_left hne]

theorem unlisted_below :
    (walk disk skips root).unlisted.filter (fun u => u.1 == relativeText p || isBelow p u.1) =
      (walk disk skips (pathBelow root p)).unlisted.map fun u => (textUnder p u.1, u.2) := by
  obtain ⟨hp, hpn⟩ := hreached.names (Disk.wellFormed_node hdisk hroot)
  obtain ⟨-, hvisits⟩ := visits_below hdisk hp hroot hfits hdone hreached
  rw [unlisted, filter_filterMap_congr fun v => p.isPrefixOf (placeOf v), hvisits,
    unlisted, List.filterMap_map, List.map_filterMap]
  · congr 1
    funext v
    cases v <;> rfl
  · intro v hv u hu
    obtain ⟨q, hq⟩ := at_of_walk hdisk hv
    have hsame : relativeText q = relativeText p ↔ q = p :=
      ⟨relativeText_inj hq.names hpn, fun h => by rw [h]⟩
    rw [← Visit.relative_of_unlisted? hu, placeOf, hq.place, hq.relative, Bool.eq_iff_iff,
      Bool.or_eq_true, beq_iff_eq, hsame, isBelow_relativeText hp hpn hq.names,
      List.isPrefixOf_iff_prefix]
    constructor
    · rintro (rfl | ⟨h, -⟩)
      · exact List.prefix_rfl
      · exact h
    · intro h
      by_cases heq : q = p
      · exact .inl heq
      · exact .inr ⟨h, heq⟩

end Below

end Walk

end LeakScan
