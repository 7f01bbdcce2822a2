import LeakScan.Disk.Canonical
import LeakScan.Proofs.Disk.Below

namespace LeakScan

namespace Path

variable {path piece : String} {ns : List String}

theorem isAbsolute_intercalate (h : ∀ n ∈ ns, matters n = true ∧ '/' ∉ n.toList) :
    isAbsolute ("/".intercalate ns) = false := by
  cases ns with
  | nil => decide
  | cons n rest =>
    obtain ⟨hmatters, hslash⟩ := h n List.mem_cons_self
    obtain ⟨c, cs, hchars⟩ : ∃ c cs, n.toList = c :: cs :=
      List.exists_cons_of_ne_nil (by simpa using (matters_iff.1 hmatters).1)
    have hc : c ≠ '/' := by
      rintro rfl
      exact hslash (hchars ▸ List.mem_cons_self)
    cases rest <;> simp [isAbsolute, String.toList_append, hchars, hc]

theorem names_slash_append (path : String) : names ("/" ++ path) = names path := by
  have h : names ("" ++ "/" ++ path) = names "" ++ names path := names_append_slash "" path
  rwa [String.empty_append, show names "" = [] by decide, List.nil_append] at h

theorem filter_steps (path : String) : (steps path).filter matters = names path := by
  have hsolid : (solid path).filter matters = names path := by
    rw [solid, List.filter_filter, names]
    refine List.filter_congr fun n _ => ?_
    rw [matters]
    cases n != "" <;> simp
  rcases steps_eq path with h | h
  · rw [h, hsolid]
  · rw [h, List.filter_append, hsolid]
    simp [matters]

end Path

namespace Disk

end Disk

end LeakScan
