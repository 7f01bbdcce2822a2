import LeakScan.Proofs.Walk.Places

namespace LeakScan.Walk

variable {disk : Disk} {skips : Config.Skips} {root : String} {entries : List (String × Node)}
  {access : Access} {searchable : Bool} {name : String} {q : Location} {path relative : String} {doc : Document}
  {e : PathError}

theorem leadsToDirectory_error {listed : String} :
    leadsToDirectory disk listed = .error e ↔
      e.path = listed ∧ disk.node e.path = .error e.fault ∧ e.fault ≠ .noEntry := by
  unfold leadsToDirectory
  constructor
  · intro h
    split at h
    · simp at h
    · simp at h
    · next f hf hnode =>
      obtain rfl := Except.error.inj h
      exact ⟨rfl, hnode, hf⟩
  · rintro ⟨rfl, hnode, hf⟩
    rw [hnode]
    split
    · next h => simp at h
    · next h => exact absurd (Except.error.inj h) hf
    · next f _ h =>
      obtain rfl := Except.error.inj h
      rfl

theorem leadsToDirectory_true {listed : String} :
    leadsToDirectory disk listed = .ok true ↔
      ∃ entries access, disk.node listed = .ok (.directory entries access) := by
  unfold leadsToDirectory
  constructor
  · intro h
    split at h
    · next n hn =>
      cases n with
      | directory entries access => exact ⟨entries, access, hn⟩
      | file _ _ | link _ | pipe => simp [Node.isDirectory] at h
    · simp at h
    · simp at h
  · rintro ⟨entries, access, hn⟩
    rw [hn]
    rfl

theorem fileStep?_some {s : Step} :
    fileStep? disk skips name path q = some s ↔
      skipsFile skips name = false ∧ s = .ok (.document path (documentAt disk path q)) := by
  unfold fileStep?
  split
  · next h => simp [h]
  · next h => simp [h, @eq_comm _ _ s]

def TakenForFile (disk : Disk) (listed : String) (n : Node) : Prop :=
  (∃ bytes access, n = .file bytes access) ∨
    ∃ target, n = .link target ∧ leadsToDirectory disk listed = .ok false

theorem ownStep?_some {n : Node} {listed : String} {s : Step} :
    ownStep? disk skips searchable name listed path q n = some s ↔
      (TakenForFile disk listed n ∧ skipsFile skips name = false ∧
        s = .ok (.document path (documentAt disk path q))) ∨
      (∃ inner access f, n = .directory inner access ∧ name ∉ skips.dirs ∧
        listingFault? path searchable access = some f ∧
        s = .ok (.unlisted path (relativeText q) ⟨f, path⟩)) ∨
      ∃ target e, n = .link target ∧ leadsToDirectory disk listed = .error e ∧ s = .error e := by
  cases n with
  | file bytes access => simp [ownStep?, TakenForFile, fileStep?_some]
  | directory inner access =>
    simp only [ownStep?, TakenForFile]
    split
    · next h => simp [h]
    · next h => simp [h, Option.map_eq_some_iff, @eq_comm _ _ s]
  | pipe => simp [ownStep?, TakenForFile]
  | link target =>
    simp only [ownStep?, TakenForFile]
    split
    · next h => simp [h, @eq_comm _ _ s]
    · next h => simp [h]
    · next h => simp [h, fileStep?_some]

theorem ownStep?_document {n : Node} {listed : String} :
    ownStep? disk skips searchable name listed path q n = some (.ok (.document relative doc)) ↔
      ((∃ bytes access, n = .file bytes access) ∨
        ∃ target, n = .link target ∧ leadsToDirectory disk listed = .ok false) ∧
      skipsFile skips name = false ∧ relative = path ∧ doc = documentAt disk path q := by
  simp [ownStep?_some, TakenForFile]

theorem ownStep?_unlisted {n : Node} {listed : String} :
    ownStep? disk skips searchable name listed path q n = some (.ok (.unlisted root relative e)) ↔
      ∃ inner access f, n = .directory inner access ∧ name ∉ skips.dirs ∧
        listingFault? path searchable access = some f ∧ root = path ∧ relative = relativeText q ∧
        e = ⟨f, path⟩ := by
  simp [ownStep?_some]

theorem ownStep?_error {n : Node} {listed : String} :
    ownStep? disk skips searchable name listed path q n = some (.error e) ↔
      ∃ target, n = .link target ∧ leadsToDirectory disk listed = .error e := by
  simp [ownStep?_some]

def listingError (root : String) (q : Location) : PathError :=
  ⟨if Disk.pathLimit < (pathBelow root q).utf8ByteSize then .nameTooLong else .denied,
    pathBelow root q⟩

theorem listingFault?_some {path : String} {f : PathFault}
    (h : listingFault? path searchable access = some f) :
    f = if Disk.pathLimit < path.utf8ByteSize then .nameTooLong else .denied := by
  unfold listingFault? at h
  split at h
  · next hsize => rw [if_pos hsize, Option.some.inj h]
  · next hsize =>
    split at h
    · cases h
    · rw [if_neg hsize, Option.some.inj h]

section Root

variable (hroot : disk.node root = .ok (.directory entries access))
  (hwf : Node.WellFormed (.directory entries access))

include hroot hwf

theorem document_happens_iff :
    RootHappens disk skips root entries access q (.ok (.document path doc)) ↔
      (∃ d name, q = d ++ [name] ∧ Opened skips root (.directory entries access) d ∧
        ((∃ bytes w, Node.at? (.directory entries access) q = some (.file bytes w)) ∨
          ∃ target, Node.at? (.directory entries access) q = some (.link target) ∧
            leadsToDirectory disk (Path.listed (pathBelow root d) name) = .ok false) ∧
        skipsFile skips name = false) ∧
      path = pathBelow root q ∧ doc = documentAt disk (pathBelow root q) q := by
  rw [rootHappens_iff hroot hwf]
  constructor
  · rintro (⟨-, -, h⟩ | ⟨d, name, n, rfl, hd, hat, hs⟩)
    · simp at h
    · obtain ⟨hkind, hskip, rfl, rfl⟩ := ownStep?_document.1 hs
      refine ⟨⟨d, name, rfl, hd, ?_, hskip⟩, rfl, rfl⟩
      rcases hkind with ⟨bytes, w, rfl⟩ | ⟨target, rfl, hlink⟩
      · exact .inl ⟨bytes, w, hat⟩
      · exact .inr ⟨target, hat, hlink⟩
  · rintro ⟨⟨d, name, rfl, hd, hkind, hskip⟩, rfl, rfl⟩
    refine .inr ?_
    rcases hkind with ⟨bytes, w, hat⟩ | ⟨target, hat, hlink⟩
    · exact ⟨d, name, _, rfl, hd, hat, ownStep?_document.2 ⟨.inl ⟨bytes, w, rfl⟩, hskip, rfl, rfl⟩⟩
    · exact ⟨d, name, _, rfl, hd, hat,
        ownStep?_document.2 ⟨.inr ⟨target, rfl, hlink⟩, hskip, rfl, rfl⟩⟩

theorem unlisted_happens_iff :
    RootHappens disk skips root entries access q (.ok (.unlisted path relative e)) ↔
      Unlistable skips root (.directory entries access) q ∧ path = pathBelow root q ∧
        relative = relativeText q ∧ e = listingError root q := by
  have hsize := Disk.size_le_of_node hroot
  rw [rootHappens_iff hroot hwf]
  constructor
  · rintro (⟨hread, rfl, h⟩ | ⟨d, name, n, rfl, hd, hat, hs⟩)
    · cases h
      refine ⟨⟨⟨entries, access, Node.at?_nil⟩, ?_, .inl rfl⟩, rfl, rfl, ?_⟩
      · rw [listable_nil]
        rintro ⟨⟨_, _, heq, hopen⟩, -⟩
        cases heq
        rw [hread] at hopen
        cases hopen
      · simp [listingError, pathBelow, Nat.not_lt.2 hsize]
    · obtain ⟨inner, w, f, rfl, hname, hf, rfl, rfl, rfl⟩ := ownStep?_unlisted.1 hs
      refine ⟨⟨⟨inner, w, hat⟩, ?_, .inr ⟨d, name, rfl, hd, hname⟩⟩, rfl, rfl, ?_⟩
      · rw [listable_concat hat, hf]
        simp
      · rw [listingError, ← listingFault?_some hf]
  · rintro ⟨⟨⟨inner, w, hat⟩, hl, hplace⟩, rfl, rfl, rfl⟩
    rcases hplace with rfl | ⟨d, name, rfl, hd, hname⟩
    · rw [Node.at?_nil] at hat
      obtain ⟨rfl, rfl⟩ := Node.directory.inj (Option.some.inj hat)
      refine .inl ⟨?_, rfl, ?_⟩
      · by_contra hread
        exact hl (listable_nil.2 ⟨⟨_, _, rfl, by simpa using hread⟩, hsize⟩)
      · simp [listingError, pathBelow, Nat.not_lt.2 hsize]
    · rw [listable_concat hat] at hl
      obtain ⟨f, hf⟩ := Option.ne_none_iff_exists'.1 hl
      refine .inr ⟨d, name, _, rfl, hd, hat, ownStep?_unlisted.2
        ⟨inner, w, f, rfl, hname, hf, rfl, rfl, ?_⟩⟩
      rw [listingError, ← listingFault?_some hf]

theorem error_happens_iff :
    RootHappens disk skips root entries access q (.error e) ↔
      Obstructs disk skips root (.directory entries access) q e := by
  rw [rootHappens_iff hroot hwf]
  constructor
  · rintro (⟨-, -, h⟩ | ⟨d, name, n, rfl, hd, hat, hs⟩)
    · simp at h
    · obtain ⟨target, rfl, hlink⟩ := ownStep?_error.1 hs
      exact ⟨d, name, target, rfl, hd, hat, leadsToDirectory_error.1 hlink⟩
  · rintro ⟨d, name, target, rfl, hd, hat, hpath, hnode, hfault⟩
    refine .inr ⟨d, name, _, rfl, hd, hat, ownStep?_error.2 ⟨target, rfl, ?_⟩⟩
    exact leadsToDirectory_error.2 ⟨hpath, hnode, hfault⟩

end Root

end LeakScan.Walk
