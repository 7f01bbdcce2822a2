import LeakScan.Proofs.Disk.Below
import LeakScan.Proofs.Walk.Coverage

namespace LeakScan.Walk

variable {disk : Disk} {root : String} {top n : Node} {p : Location} {bytes : List UInt8}

theorem hasNul_pathBelow (hroot : Path.hasNul root = false)
    (hp : ∀ name ∈ p, Node.IsName name) : Path.hasNul (pathBelow root p) = false := by
  induction p generalizing root with
  | nil => exact hroot
  | cons name p ih =>
    have hname := hp name List.mem_cons_self
    exact ih (Path.hasNul_below hroot hname.no_nul) fun c hc => hp c (List.mem_cons_of_mem _ hc)

theorem isAbsolute_pathBelow (hroot : Path.isAbsolute root = true) (p : Location) :
    Path.isAbsolute (pathBelow root p) = true := by
  induction p generalizing root with
  | nil => exact hroot
  | cons name p ih => exact ih (Path.isAbsolute_below hroot name)

/-- The path of a place leads to this place below the root if no link stands there, or the system
does not tell. -/
theorem locate_pathBelow {place : Location} (hroot : disk.locate root = .ok (.node place top))
    (habsolute : Path.isAbsolute root = true) (htop : top.WellFormed) (hat : top.at? p = some n)
    (hn : ∀ target, n ≠ .link target) :
    disk.locate (pathBelow root p) = .ok (.node (place ++ p) n) ∨
      disk.Hides (pathBelow root p) := by
  induction p using List.reverseRecOn generalizing n with
  | nil =>
    rw [Node.at?_nil] at hat
    rw [List.append_nil]
    exact .inl (Option.some.inj hat ▸ hroot)
  | append_singleton p name ih =>
    obtain ⟨entries, access, hdir, hchild⟩ := Node.at?_append_some hat
    have hname : Node.IsName name := htop.isName_of_at? hat name (by simp)
    have hpath : pathBelow root (p ++ [name]) = Path.below (pathBelow root p) name := by
      simp [pathBelow]
    rw [hpath, ← List.append_assoc]
    rcases ih hdir (by simp) with h | h
    · exact Disk.locate_below_cases hname h hchild hn
    · have hnul := hasNul_pathBelow (Disk.hasNul_of_locate hroot) (htop.isName_of_at? hdir)
      have habove := isAbsolute_pathBelow habsolute p
      rw [Path.below_of_isAbsolute habove]
      exact .inr (Disk.hides_listed hname hnul (Path.ne_empty_of_isAbsolute habove) h)

theorem node_pathBelow (hroot : disk.node root = .ok top) (habsolute : Path.isAbsolute root = true)
    (htop : top.WellFormed) (hat : top.at? p = some n) (hn : ∀ target, n ≠ .link target) :
    disk.node (pathBelow root p) = .ok n ∨ disk.Hides (pathBelow root p) := by
  obtain ⟨place, hplace⟩ := Disk.locate_of_node hroot
  exact (locate_pathBelow hplace habsolute htop hat hn).imp_left fun h => Disk.node_eq_ok.2 ⟨_, h⟩

/-- A regular file stands at a place, or a link that leads to one. -/
def HoldsFile (disk : Disk) (root : String) (top : Node) (p : Location) (bytes : List UInt8) :
    Prop :=
  (∃ access, top.at? p = some (.file bytes access)) ∨
  (∃ target, top.at? p = some (.link target)) ∧
    ∃ access, disk.node (pathBelow root p) = .ok (.file bytes access)

theorem HoldsFile.at? (h : HoldsFile disk root top p bytes) : ∃ n, top.at? p = some n := by
  rcases h with ⟨access, hat⟩ | ⟨⟨target, hat⟩, -⟩
  · exact ⟨_, hat⟩
  · exact ⟨_, hat⟩

theorem readAt_of_file {path : String} {access : Access} {found : List UInt8}
    (h : disk.node path = .ok (.file bytes access)) (hread : disk.readAt path = .ok found) :
    found = bytes := by
  rw [Disk.readAt, h] at hread
  simp only [Disk.contentOf] at hread
  split at hread
  · exact (Except.ok.inj hread).symm
  · cases hread

theorem HoldsFile.readAt {found : List UInt8} (h : HoldsFile disk root top p bytes)
    (hroot : disk.node root = .ok top) (habsolute : Path.isAbsolute root = true)
    (htop : top.WellFormed) (hread : disk.readAt (pathBelow root p) = .ok found) :
    found = bytes := by
  rcases h with ⟨access, hat⟩ | ⟨-, access, hnode⟩
  · rcases node_pathBelow hroot habsolute htop hat (by simp) with hnode | ⟨f, hf, -⟩
    · exact readAt_of_file hnode hread
    · simp [Disk.readAt, hf] at hread
  · exact readAt_of_file hnode hread

theorem text_of_readError {path : String} {q : Location}
    (h : (documentAt disk path q).readError = none) :
    ∃ text, (documentAt disk path q).text = some text := by
  unfold documentAt at h ⊢
  split at h
  · simp at h
  · split at h
    · simp at h
    · next text _ => exact ⟨text, rfl⟩

theorem readAt_of_text {path text : String} {q : Location}
    (h : (documentAt disk path q).text = some text) :
    ∃ bytes content, disk.readAt path = .ok bytes ∧ Text.decodeUtf8 bytes = .ok content ∧
      text = String.ofList (Text.uniformLineEnds content) := by
  unfold documentAt at h
  split at h
  · simp at h
  · next bytes hread =>
    split at h
    · simp at h
    · next t ht =>
      obtain rfl : t = text := Option.some.inj h
      cases hdecode : Text.decodeUtf8 bytes with
      | error e => simp [textOfBytes, hdecode, Except.map] at ht
      | ok content =>
        rw [textOfBytes, hdecode] at ht
        exact ⟨bytes, content, hread, hdecode, (Except.ok.inj ht).symm⟩

theorem HoldsFile.text {text : String} {content : List Char}
    (h : HoldsFile disk root top p bytes) (hroot : disk.node root = .ok top)
    (habsolute : Path.isAbsolute root = true) (htop : top.WellFormed)
    (hcontent : Text.decodeUtf8 bytes = .ok content)
    (htext : (documentAt disk (pathBelow root p) p).text = some text) :
    text = String.ofList (Text.uniformLineEnds content) := by
  obtain ⟨found, content', hread, hdecode, rfl⟩ := readAt_of_text htext
  obtain rfl := h.readAt hroot habsolute htop hread
  rw [Except.ok.inj (hcontent.symm.trans hdecode)]

end LeakScan.Walk
