import LeakScan.Disk.Canonical
import LeakScan.Proofs.Disk.Tree

namespace LeakScan

namespace Path

variable {directory name : String}

theorem hasNul_listed (hdir : hasNul directory = false) (hname : '\x00' ∉ name.toList) :
    hasNul (listed directory name) = false := by
  simp only [hasNul, List.contains_eq_mem, decide_eq_false_iff_not] at hdir ⊢
  unfold listed
  split
  · simp [String.toList_append, hdir, hname]
  · simp [String.toList_append, hdir, hname]

theorem hasNul_below (hdir : hasNul directory = false) (hname : '\x00' ∉ name.toList) :
    hasNul (below directory name) = false := by
  unfold below
  split
  · simpa [hasNul] using hname
  · exact hasNul_listed hdir hname

end Path

namespace Disk

variable {root n : Node} {place : Location} {steps : List String} {f : PathFault} {d : Disk}
  {path : String}

theorem descend_fault (h : descend root place steps = .fault f) :
    f = .noEntry ∨ f = .denied ∨ f = .notDirectory ∨ f = .nameTooLong := by
  fun_induction descend root place steps with
  | case5 place step rest entries access hat g hmove =>
    obtain rfl := Stop.fault.inj h
    rcases moveOf_refused hmove with rfl | rfl <;> simp
  | _ => simp_all

theorem locateFrom_error {links : Nat} (h : locateFrom root links place steps = .error f) :
    f = .noEntry ∨ f = .denied ∨ f = .notDirectory ∨ f = .nameTooLong ∨ f = .tooManyLinks := by
  have hstuck {g : PathFault} {place : Location} {steps : List String}
      (hg : descend root place steps = .fault g) (h : Except.error (α := Found) g = .error f) :
      f = .noEntry ∨ f = .denied ∨ f = .notDirectory ∨ f = .nameTooLong ∨ f = .tooManyLinks := by
    obtain rfl := Except.error.inj h
    rcases descend_fault hg with rfl | rfl | rfl | rfl <;> simp
  induction links generalizing place steps with
  | zero =>
    rw [locateFrom] at h
    split at h
    · simp at h
    · next g hg => exact hstuck hg h
    · obtain rfl := Except.error.inj h
      simp
  | succ links ih =>
    rw [locateFrom] at h
    split at h
    · simp at h
    · next g hg => exact hstuck hg h
    · exact ih h

theorem exists_link_of_descend {q : Location} {target : String} {rest : List String}
    (h : descend root place steps = .link q target rest) : ∃ r, root.at? r = some (.link target) := by
  fun_induction descend root place steps with
  | case6 place step rest' entries access hat _ target' hchild =>
    obtain ⟨rfl, rfl, rfl⟩ := Stop.link.inj h
    refine ⟨place ++ [step], ?_⟩
    rw [Node.at?_append, hat]
    simp [Node.at?_cons, hchild]
  | _ => simp_all

theorem exists_link {links : Nat} (h : locateFrom root links place steps = .error .tooManyLinks) :
    ∃ r target, root.at? r = some (.link target) := by
  cases hd : descend root place steps with
  | found f => cases links <;> simp [locateFrom, hd] at h
  | fault g =>
    have hg : g = .tooManyLinks := by cases links <;> simpa [locateFrom, hd] using h
    rcases descend_fault hd with rfl | rfl | rfl | rfl <;> cases hg
  | link directory target rest =>
    obtain ⟨r, hr⟩ := exists_link_of_descend hd
    exact ⟨r, target, hr⟩

theorem node_error (hnul : Path.hasNul path = false) (h : d.node path = .error f) :
    f = .noEntry ∨ f = .denied ∨ f = .notDirectory ∨ f = .nameTooLong ∨ f = .tooManyLinks := by
  unfold node at h
  split at h
  · simp at h
  · obtain rfl := Except.error.inj h
    simp
  · next g hg =>
    obtain rfl := Except.error.inj h
    unfold locate at hg
    rw [hnul, if_neg (by simp)] at hg
    split at hg
    · obtain rfl := Except.error.inj hg
      simp
    · split at hg
      · obtain rfl := Except.error.inj hg
        simp
      · exact locateFrom_error hg

theorem hasNul_of_locate {found : Found} (h : d.locate path = .ok found) :
    Path.hasNul path = false := by
  unfold locate at h
  split at h
  · simp at h
  · next hnul => simpa using hnul

theorem hasNul_of_node (h : d.node path = .ok n) : Path.hasNul path = false := by
  obtain ⟨place, hl⟩ := locate_of_node h
  exact hasNul_of_locate hl

section Asked

variable {given : String} {p : Node → Bool} {e : PathError}

theorem node_fault (h : d.node path = .error f) :
    f = .nul ∨ f = .noEntry ∨ f = .denied ∨ f = .notDirectory ∨ f = .nameTooLong ∨
      f = .tooManyLinks := by
  by_cases hnul : Path.hasNul path = true
  · refine .inl ?_
    have hlocate : d.locate path = .error .nul := by rw [locate, if_pos hnul]
    rw [node, hlocate] at h
    exact (Except.error.inj h).symm
  · exact .inr (node_error (by simpa using hnul) h)

/-- The system does not tell whether anything stands at a path: on the way to it a directory cannot
be searched, or a name is too long. -/
def Hides (d : Disk) (path : String) : Prop :=
  ∃ f, d.node path = .error f ∧ f.meansAbsent = false

theorem node_of_hides (h : d.Hides path) :
    d.node path = .error .denied ∨ d.node path = .error .nameTooLong := by
  obtain ⟨f, hf, hhides⟩ := h
  rcases node_fault hf with rfl | rfl | rfl | rfl | rfl | rfl
  · cases hhides
  · cases hhides
  · exact .inl hf
  · cases hhides
  · exact .inr hf
  · cases hhides

theorem holdsAt_error (h : d.holdsAt path p = .error e) :
    d.Hides path ∧ ∃ f, d.node path = .error f ∧ e = ⟨f, path⟩ := by
  unfold holdsAt at h
  split at h
  · cases h
  · next f hf =>
    split at h
    · cases h
    · next habsent =>
      exact ⟨⟨f, hf, by simpa using habsent⟩, f, hf, (Except.error.inj h).symm⟩

theorem holdsAt_of_fault (h : d.node path = .error f) (hf : f.meansAbsent = false) :
    d.holdsAt path p = .error ⟨f, path⟩ := by
  simp [holdsAt, h, hf]

theorem holdsAt_of_hides (h : d.Hides path) : ∃ f, d.holdsAt path p = .error ⟨f, path⟩ := by
  obtain ⟨f, hf, hhides⟩ := h
  exact ⟨f, holdsAt_of_fault hf hhides⟩

theorem holdsAt_of_node (h : d.node path = .ok n) : d.holdsAt path p = .ok (p n) := by
  rw [holdsAt, h]

theorem holdsAt_of_absent (h : d.node path = .error f) (hf : f.meansAbsent = true) :
    d.holdsAt path p = .ok false := by
  simp [holdsAt, h, hf]

theorem locate_of_holdsAt (h : d.holdsAt path p = .ok true) :
    ∃ q n, d.locate path = .ok (.node q n) ∧ p n = true := by
  unfold holdsAt at h
  split at h
  · next n hn =>
    obtain ⟨q, hq⟩ := locate_of_node hn
    exact ⟨q, n, hq, Except.ok.inj h⟩
  · split at h <;> cases h

theorem readAt_of_readable {bytes : List UInt8} {access : Access}
    (h : d.node path = .ok (.file bytes access)) (hread : access.read = true) :
    d.readAt path = .ok bytes := by
  simp only [readAt, h, contentOf, hread]
  rfl

theorem node_cases (d : Disk) (path : String) :
    (∃ n, d.node path = .ok n) ∨
      (∃ f, d.node path = .error f ∧ f.meansAbsent = true) ∨ d.Hides path := by
  cases h : d.node path with
  | ok n => exact .inl ⟨n, rfl⟩
  | error f =>
    cases hf : f.meansAbsent with
    | true => exact .inr (.inl ⟨f, rfl, hf⟩)
    | false => exact .inr (.inr ⟨f, h, hf⟩)

theorem settle_loop {place : Location} (h : d.settle place = .error (.loop path)) :
    d.node path = .error .tooManyLinks := by
  unfold settle at h
  simp only at h
  split at h
  · next hnode =>
    obtain rfl := Unresolved.loop.inj (Except.error.inj h)
    exact hnode
  · simp at h
  · simp at h

theorem canonical_loop (h : d.canonical given = .error (.loop path)) :
    d.node path = .error .tooManyLinks := by
  unfold canonical at h
  split at h
  · exact settle_loop h
  · exact settle_loop h
  · simp at h

theorem exists_link_of_node (h : d.node path = .error .tooManyLinks) :
    ∃ q target, d.root.at? q = some (.link target) := by
  have hlocate : d.locate path = .error .tooManyLinks := by
    unfold node at h
    split at h
    · simp at h
    · simp at h
    · next hl => exact Except.error.inj h ▸ hl
  unfold locate at hlocate
  split at hlocate
  · simp at hlocate
  · split at hlocate
    · simp at hlocate
    · split at hlocate
      · simp at hlocate
      · exact exists_link hlocate

end Asked

end Disk

end LeakScan
