import LeakScan.Proofs.Disk.Alike
import LeakScan.Proofs.Walk.Coverage

namespace LeakScan.Walk

variable {r : List UInt8 → List UInt8 → Prop} {disk disk' : Disk} {skips : Config.Skips}
  {root : String} {top top' n m : Node} {entries entries' : List (String × Node)} {access : Access}
  {d q : Location} {s : Step}

theorem walk_of_error {f : PathFault} (h : disk.node root = .error f) :
    walk disk skips root = if f = .nul then stop ⟨.nul, root⟩
      else visit (.unlisted root (relativeText []) ⟨f, root⟩) := by
  unfold walk
  rw [h]
  cases f <;> rfl

theorem walk_of_not_directory (h : disk.node root = .ok n) (hn : n.isDirectory = false) :
    walk disk skips root = visit (.unlisted root (relativeText []) ⟨.notDirectory, root⟩) := by
  unfold walk
  rw [h]
  cases n with
  | directory _ _ => simp [Node.isDirectory] at hn
  | file _ _ | link _ | pipe => rfl

theorem at?_directory_alike (h : top.Alike r top') (htop : top.WellFormed) {inner : List (String × Node)}
    {w : Access} (hat : top.at? q = some (.directory inner w)) :
    ∃ inner', top'.at? q = some (.directory inner' w) := by
  rcases h.at? htop q with ⟨hn, -⟩ | ⟨k, k', hk, hk', hkk⟩
  · rw [hat] at hn
    simp at hn
  · obtain rfl : k = .directory inner w := Option.some.inj (hk.symm.trans hat)
    cases hkk with
    | directory _ _ _ => exact ⟨_, hk'⟩

theorem Listable.alike (h : top.Alike r top') (htop : top.WellFormed)
    (hl : Listable root top q) : Listable root top' q := by
  obtain ⟨inner, access, hat, hread, hsearch, hsize⟩ := hl
  obtain ⟨inner', hat'⟩ := at?_directory_alike h htop hat
  refine ⟨inner', access, hat', hread, fun hq => ?_, hsize⟩
  rw [Disk.searchableAt_alike h htop]
  exact hsearch hq

theorem Opened.alike (h : top.Alike r top') (htop : top.WellFormed)
    (hd : Opened skips root top d) : Opened skips root top' d :=
  ⟨fun q hq => (hd.listable q hq).alike h htop, hd.kept⟩

theorem Unlistable.alike (h : top.Alike r top') (htop : top.WellFormed)
    (hq : Unlistable skips root top q) : Unlistable skips root top' q := by
  obtain ⟨⟨inner, w, hat⟩, hl, hplace⟩ := hq
  obtain ⟨inner', hat'⟩ := at?_directory_alike h htop hat
  refine ⟨⟨inner', w, hat'⟩, fun hl' => hl (hl'.alike h.symm (h.wellFormed htop)), ?_⟩
  rcases hplace with rfl | ⟨d, name, rfl, hd, hname⟩
  · exact .inl rfl
  · exact .inr ⟨d, name, rfl, hd.alike h htop, hname⟩

structure Blind (r : List UInt8 → List UInt8 → Prop) : Prop where
  empty : r [] []
  text : ∀ bytes bytes', r bytes bytes' → textOfBytes bytes = textOfBytes bytes'

theorem Blind.flip (hr : Blind r) : Blind (flip r) :=
  ⟨hr.empty, fun bytes bytes' h => (hr.text bytes' bytes h).symm⟩

theorem blind_eq : Blind (· = ·) := ⟨rfl, fun _ _ h => congrArg textOfBytes h⟩

section Disks

variable (h : disk.Alike r disk') (hdisk : disk.root.WellFormed)

include h hdisk

theorem leadsToDirectory_alike (path : String) :
    leadsToDirectory disk' path = leadsToDirectory disk path := by
  unfold leadsToDirectory
  rcases (h.node hdisk path).eq_or with ⟨f, hn, hm⟩ | ⟨n, m, hn, hm, hnm⟩
  · rw [hn, hm]
  · rw [hn, hm]
    cases hnm <;> rfl

theorem LeadsToDirectory.alike {d : Location} {name : String}
    (hto : LeadsToDirectory disk root d name) : LeadsToDirectory disk' root d name := by
  obtain ⟨inner, w, hnode⟩ := hto
  rcases (h.node hdisk (Path.listed (pathBelow root d) name)).eq_or with
    ⟨f, hn, -⟩ | ⟨n, m, hn, hm, hnm⟩
  · rw [hnode] at hn
    cases hn
  · rw [hnode] at hn
    cases hn
    cases hnm with
    | directory _ _ _ => exact ⟨_, w, hm⟩

theorem Eligible.alike (htop : top.Alike r top') (hwf : top.WellFormed)
    (hq : Eligible disk skips root top q) : Eligible disk' skips root top' q := by
  obtain ⟨d, name, rfl, hd, hkind, hsuffix⟩ := hq
  refine ⟨d, name, rfl, hd.alike htop hwf, ?_, hsuffix⟩
  rcases htop.at? hwf (d ++ [name]) with ⟨hn, -⟩ | ⟨k, k', hk, hk', hkk⟩
  · rcases hkind with ⟨_, _, hat⟩ | ⟨_, hat, -⟩ <;> simp [hn] at hat
  · rw [hk] at hkind
    rw [hk']
    rcases hkind with ⟨bytes, w, hat⟩ | ⟨target, hat, hno⟩
    · obtain rfl := Option.some.inj hat
      cases hkk with
      | file _ _ => exact .inl ⟨_, w, rfl⟩
    · obtain rfl := Option.some.inj hat
      cases hkk with
      | link _ =>
        exact .inr ⟨target, rfl, fun hto =>
          hno (LeadsToDirectory.alike h.symm (h.root.wellFormed hdisk) hto)⟩

variable (hr : Blind r)

include hr

theorem documentAt_alike (path : String) (q : Location) :
    documentAt disk' path q = documentAt disk path q := by
  unfold documentAt
  rcases (h.readAt hdisk path hr.empty).eq_or with ⟨e, hread, hread'⟩ | ⟨b, b', hread, hread', hb⟩
  · rw [hread, hread']
  · rw [hread, hread']
    simp only [hr.text b b' hb]

theorem ownStep?_alike (hnm : n.Alike r m) (searchable : Bool) (name listed path : String)
    (q : Location) :
    ownStep? disk' skips searchable name listed path q m =
      ownStep? disk skips searchable name listed path q n := by
  have hfile : fileStep? disk' skips name path q = fileStep? disk skips name path q := by
    unfold fileStep?
    rw [documentAt_alike h hdisk hr]
  cases hnm with
  | file _ _ => exact hfile
  | directory _ _ _ => rfl
  | link target =>
    unfold ownStep?
    rw [leadsToDirectory_alike h hdisk, hfile]
  | pipe => rfl

theorem RootHappens.alike (hroot : disk.node root = .ok (.directory entries access))
    (hroot' : disk'.node root = .ok (.directory entries' access))
    (htop : Node.Alike r (.directory entries access) (.directory entries' access))
    (hs : RootHappens disk skips root entries access q s) :
    RootHappens disk' skips root entries' access q s := by
  have hwf := Disk.wellFormed_node hdisk hroot
  rw [rootHappens_iff hroot hwf] at hs
  rw [rootHappens_iff hroot' (htop.wellFormed hwf)]
  rcases hs with hs | ⟨d, name, n, rfl, hd, hat, hs⟩
  · exact .inl hs
  · rcases htop.at? hwf (d ++ [name]) with ⟨hnone, -⟩ | ⟨k, k', hk, hk', hkk⟩
    · rw [hat] at hnone
      simp at hnone
    · obtain rfl : k = n := Option.some.inj (hk.symm.trans hat)
      refine .inr ⟨d, name, k', rfl, hd.alike htop hwf, hk', ?_⟩
      rw [Disk.searchableAt_alike htop hwf, ownStep?_alike h hdisk hr hkk]
      exact hs

theorem walk_alike : walk disk' skips root = walk disk skips root := by
  rcases (h.node hdisk root).eq_or with ⟨f, hn, hm⟩ | ⟨n, m, hn, hm, hnm⟩
  · rw [walk_of_error hn, walk_of_error hm]
  · have hwf := Disk.wellFormed_node hdisk hn
    have hdisk' := h.root.wellFormed hdisk
    cases hnm with
    | @directory entries entries' access names below =>
      have htop : Node.Alike r (.directory entries access) (.directory entries' access) :=
        .directory access names below
      refine (traces_walk hm (htop.wellFormed hwf)).unique ((traces_walk hn hwf).congr ?_)
      exact fun q s => ⟨fun hs => hs.alike h hdisk hr hn hm htop,
        fun hs => hs.alike h.symm hdisk' hr.flip hm hn htop.symm⟩
    | file _ _ | link _ | pipe => rw [walk_of_not_directory hn rfl, walk_of_not_directory hm rfl]

end Disks

end LeakScan.Walk
