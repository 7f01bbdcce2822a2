import LeakScan.Proofs.Disk.Tree
import LeakScan.Scan.Walk
import Mathlib.Tactic.Tauto

namespace LeakScan

theorem Path.piecesChars_eq_splitOn (cs : List Char) : piecesChars cs = cs.splitOn '/' := by
  induction cs with
  | nil => rfl
  | cons c cs ih =>
    rw [piecesChars, ih, List.splitOn, List.splitOn, List.splitOnP_cons_eq_if_modifyHead]
    by_cases hc : c = '/'
    · simp [hc]
    · simp only [hc, if_false, beq_iff_eq]
      cases hsplit : cs.splitOnP (· == '/') with
      | nil => exact absurd hsplit (List.splitOnP_ne_nil _ _)
      | cons p ps => rfl

theorem Path.pieces_intercalate {p : Location} (hne : p ≠ []) (hp : ∀ c ∈ p, '/' ∉ c.toList) :
    pieces ("/".intercalate p) = p := by
  have hslash : ∀ cs ∈ p.map String.toList, '/' ∉ cs := by simpa using hp
  have htext : ("/".intercalate p).toList = ['/'].intercalate (p.map String.toList) :=
    String.toList_intercalate
  rw [pieces, piecesChars_eq_splitOn, htext,
    List.splitOn_intercalate '/' hslash (by simpa using hne), List.map_map]
  simp

namespace Path

def matters (piece : String) : Bool := piece != "" && piece != "."

theorem matters_iff {piece : String} : matters piece = true ↔ piece ≠ "" ∧ piece ≠ "." := by
  simp [matters]

theorem names_intercalate {p : Location} (hp : ∀ c ∈ p, matters c = true ∧ '/' ∉ c.toList) :
    names ("/".intercalate p) = p := by
  by_cases hne : p = []
  · subst hne
    decide
  · rw [names, pieces_intercalate hne fun c hc => (hp c hc).2]
    exact List.filter_eq_self.2 fun c hc => (hp c hc).1

end Path

theorem Node.IsName.matters {name : String} (h : IsName name) :
    Path.matters name = true ∧ '/' ∉ name.toList :=
  ⟨Path.matters_iff.2 ⟨h.ne_empty, h.ne_dot⟩, h.no_slash⟩

theorem names_relativeText {p : Location} (hp : ∀ c ∈ p, Node.IsName c) :
    Path.names (relativeText p) = p := by
  cases p with
  | nil => decide
  | cons name rest => exact Path.names_intercalate fun c hc => (hp c hc).matters

theorem relativeText_inj {p q : Location} (hp : ∀ c ∈ p, Node.IsName c)
    (hq : ∀ c ∈ q, Node.IsName c) (h : relativeText p = relativeText q) : p = q := by
  rw [← names_relativeText hp, ← names_relativeText hq, h]

namespace Path

/-- `s` is the part of a name from its last dot on, or nothing if there is no dot or the last one is
the first or the last character of the name. -/
def IsSuffix (name s : String) : Prop :=
  (∃ stem tail, name.toList = stem ++ '.' :: tail ∧ '.' ∉ tail ∧ stem ≠ [] ∧ tail ≠ [] ∧
    s = String.ofList ('.' :: tail)) ∨
  s = "" ∧ ∀ stem tail, name.toList = stem ++ '.' :: tail → '.' ∉ tail → stem = [] ∨ tail = []

theorem suffix_of_dot {name : String} {stem tail : List Char}
    (hname : name.toList = stem ++ '.' :: tail) (htail : '.' ∉ tail) :
    suffix name = if stem ≠ [] ∧ tail ≠ [] then String.ofList ('.' :: tail) else "" := by
  have hlast : (name.toList.reverse.takeWhile (· != '.')).reverse = tail := by
    have hall : ∀ c ∈ tail.reverse, (c != '.') = true := by
      intro c hc
      rw [List.mem_reverse] at hc
      exact bne_iff_ne.2 fun heq => htail (heq ▸ hc)
    rw [hname, List.reverse_append, List.reverse_cons, List.append_assoc,
      List.takeWhile_append_of_pos hall]
    simp
  have hstem : 0 < stem.length ↔ stem ≠ [] := List.length_pos_iff
  unfold suffix
  simp only [hlast]
  by_cases hs : stem = [] <;> by_cases ht : tail = [] <;> simp [hname, hs, ht, hstem]

theorem suffix_of_no_dot {name : String} (h : '.' ∉ name.toList) : suffix name = "" := by
  simp [suffix, h]

theorem exists_last_dot {name : String} (h : '.' ∈ name.toList) :
    ∃ stem tail, name.toList = stem ++ '.' :: tail ∧ '.' ∉ tail := by
  obtain ⟨before, after, hrev, hno⟩ := List.eq_append_cons_of_mem (List.mem_reverse.2 h)
  refine ⟨after.reverse, before.reverse, ?_, by simpa using hno⟩
  rw [← List.reverse_reverse name.toList, hrev]
  simp

theorem isSuffix_iff {name s : String} : IsSuffix name s ↔ s = suffix name := by
  constructor
  · rintro (⟨stem, tail, hname, htail, hs, ht, rfl⟩ | ⟨rfl, hall⟩)
    · rw [suffix_of_dot hname htail, if_pos ⟨hs, ht⟩]
    · by_cases hdot : '.' ∈ name.toList
      · obtain ⟨stem, tail, hname, htail⟩ := exists_last_dot hdot
        have hend := hall stem tail hname htail
        rw [suffix_of_dot hname htail, if_neg (by tauto)]
      · exact (suffix_of_no_dot hdot).symm
  · rintro rfl
    by_cases hproper : ∃ stem tail, name.toList = stem ++ '.' :: tail ∧ '.' ∉ tail ∧ stem ≠ [] ∧
        tail ≠ []
    · obtain ⟨stem, tail, hname, htail, hs, ht⟩ := hproper
      refine .inl ⟨stem, tail, hname, htail, hs, ht, ?_⟩
      rw [suffix_of_dot hname htail, if_pos ⟨hs, ht⟩]
    · refine .inr ⟨?_, fun stem tail hname htail => ?_⟩
      · by_cases hdot : '.' ∈ name.toList
        · obtain ⟨stem, tail, hname, htail⟩ := exists_last_dot hdot
          rw [suffix_of_dot hname htail,
            if_neg fun hends => hproper ⟨stem, tail, hname, htail, hends⟩]
        · exact suffix_of_no_dot hdot
      · have hends : ¬ (stem ≠ [] ∧ tail ≠ []) :=
          fun hends => hproper ⟨stem, tail, hname, htail, hends⟩
        tauto

end Path

end LeakScan
