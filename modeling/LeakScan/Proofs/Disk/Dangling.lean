import LeakScan.Proofs.Disk.Rooted

namespace LeakScan

namespace Path

theorem ofLocation_append (place : Location) (name : String) :
    ∃ front, ofLocation (place ++ [name]) = front ++ "/" ++ name ∧
      solid front = solid (ofLocation place) ∧
      (hasNul (ofLocation place) = false → hasNul front = false) := by
  by_cases hne : place = []
  · subst hne
    exact ⟨"", by simp [ofLocation], by decide, fun _ => by decide⟩
  · refine ⟨ofLocation place, ?_, rfl, id⟩
    rw [ofLocation, ofLocation, String.intercalate_append_of_ne_nil hne (by simp),
      String.intercalate_singleton]
    simp only [String.append_assoc]

end Path

namespace Disk

variable {d : Disk} {place q : Location} {name target : String} {entries : List (String × Node)}
  {access : Access}

theorem locate_entry (hname : Node.IsName name)
    (hnul : Path.hasNul (Path.ofLocation place) = false) :
    d.locate (Path.ofLocation (place ++ [name])) =
      if pathLimit < (Path.ofLocation (place ++ [name])).utf8ByteSize then .error .nameTooLong
      else locateFrom d.root linkLimit [] (Path.steps (Path.ofLocation place) ++ [name]) := by
  obtain ⟨front, htext, hsolid, hfront⟩ := Path.ofLocation_append place name
  have hclear : Path.hasNul (Path.ofLocation (place ++ [name])) = false := by
    have hno := hfront hnul
    simp only [Path.hasNul, List.contains_eq_mem, decide_eq_false_iff_not] at hno ⊢
    simp [htext, String.toList_append, hno, hname.no_nul]
  have hsteps : Path.steps (Path.ofLocation (place ++ [name])) =
      Path.solid (Path.ofLocation place) ++ [name] := by
    rw [htext, Path.steps_append_name hname, Path.solid_append_slash hname, hsolid]
  have habsolute := Path.isAbsolute_ofLocation (place ++ [name])
  rw [locate_eq hclear (Path.ne_empty_of_isAbsolute habsolute), startOf, if_pos habsolute, hsteps]
  rcases Path.steps_eq (Path.ofLocation place) with h | h
  · rw [h]
  · rw [h, List.append_assoc, List.singleton_append, locateFrom_empty (by simp)]

/-- However many links are followed, the target of a link in a directory leads to nothing. -/
def Dangling (root : Node) (directory : Location) (target : String) : Prop :=
  ∀ links q n, locateFrom root links (startOf directory target) (Path.steps target) ≠
    .ok (.node q n)

theorem Dangling.locateFrom_ne {root : Node} (h : Dangling root q target) (hname : Node.IsName name)
    (hat : root.at? q = some (.directory entries access))
    (hchild : Node.child? entries name = some (.link target)) (links : Nat) (r : Location)
    (n : Node) : locateFrom root links q [name] ≠ .ok (.node r n) := by
  intro hfound
  have hentry : root.at? (q ++ [name]) = some (.link target) := by
    rw [Node.at?_append, hat, Option.bind_some, Node.at?_cons, hchild, Option.bind_some,
      Node.at?_nil]
  rcases moveOf_name_cases access hname with ⟨f, hmove⟩ | hmove
  · have hstop : descend root q [name] = .fault f := by rw [descend_cons hat, hmove]
    rw [locateFrom_of_fault hstop] at hfound
    cases hfound
  · have hstop : descend root q [name] = .link q target [] := by
      rw [descend_cons hat, hmove, hentry]
    cases links with
    | zero =>
      rw [locateFrom, hstop] at hfound
      cases hfound
    | succ links =>
      rw [locateFrom, hstop] at hfound
      simp only [List.append_nil] at hfound
      exact h links r n hfound

theorem Dangling.node_ne (h : Dangling d.root q target) (hname : Node.IsName name)
    (hdir : d.locate (Path.ofLocation place) = .ok (.node q (.directory entries access)))
    (hchild : Node.child? entries name = some (.link target)) (n : Node) :
    d.node (Path.ofLocation (place ++ [name])) ≠ .ok n := by
  intro hn
  obtain ⟨r, hr⟩ := locate_of_node hn
  have hq := (locate_ok hdir).2
  have hmore : [name] ≠ [] := by simp
  obtain ⟨left, hleft⟩ := locateFrom_append hq
  rw [startOf, if_pos (Path.isAbsolute_ofLocation place)] at hleft
  rw [locate_entry hname (hasNul_of_locate hdir), hleft hmore] at hr
  split at hr
  · cases hr
  · exact h.locateFrom_ne hname (at?_of_locateFrom hq) hchild left r n hr

end Disk

end LeakScan
