import LeakScan.Proofs.Disk.Normal
import Mathlib.Data.List.Induction

namespace LeakScan

namespace Path

variable {place : Location} {name : String}

theorem pieces_ofLocation (place : Location) :
    pieces (ofLocation place) = "" :: pieces ("/".intercalate place) := by
  have hchars : (ofLocation place).toList = [] ++ '/' :: ("/".intercalate place).toList := by
    simp [ofLocation, String.toList_append]
  rw [pieces, hchars, piecesChars_append, piecesChars, List.cons_append, List.nil_append,
    List.map_cons]
  rfl

theorem names_ofLocation (hplace : ∀ c ∈ place, Node.IsName c) :
    names (ofLocation place) = place := by
  rw [ofLocation, names_slash_append]
  exact names_intercalate fun c hc => (hplace c hc).matters

theorem leading_ofLocation (hplace : ∀ c ∈ place, Node.IsName c) :
    leading (ofLocation place) = "/" := by
  have htail : ∀ cs, ("/".intercalate place).toList ≠ '/' :: cs := by
    intro cs hcs
    have habsolute := isAbsolute_intercalate fun c hc => (hplace c hc).matters
    simp [isAbsolute, hcs] at habsolute
  have hchars : (ofLocation place).toList = '/' :: ("/".intercalate place).toList := by
    simp [ofLocation, String.toList_append]
  unfold leading
  rw [hchars]
  split
  · rfl
  · next cs _ heq => exact absurd (List.cons.inj heq).2 (htail cs)
  · rfl
  · next hno => exact absurd rfl (hno _)

theorem normal_ofLocation (hplace : ∀ c ∈ place, Node.IsName c) :
    normal (ofLocation place) = ofLocation place := by
  have hne : ofLocation place ≠ "" := by simp [ofLocation]
  rw [normal, leading_ofLocation hplace, names_ofLocation hplace]
  exact if_neg hne

theorem isAbsolute_ofLocation (place : Location) : isAbsolute (ofLocation place) = true := by
  simp [isAbsolute, ofLocation, String.toList_append]

theorem below_ofLocation (hplace : ∀ c ∈ place, Node.IsName c) (name : String) :
    below (ofLocation place) name = ofLocation (place ++ [name]) := by
  rw [below_of_isAbsolute (isAbsolute_ofLocation place), listed]
  cases place using List.reverseRecOn with
  | nil => simp [ofLocation]
  | append_singleton p c =>
    have hc := hplace c (by simp)
    have hlast : (ofLocation (p ++ [c])).toList.getLast? = c.toList.getLast? := by
      have hne : c.toList ≠ [] := by simpa using hc.ne_empty
      obtain ⟨front, hfront⟩ : ∃ front, ofLocation (p ++ [c]) = front ++ c := by
        by_cases hp : p = []
        · exact ⟨"/", by simp [ofLocation, hp]⟩
        · rw [ofLocation, String.intercalate_append_of_ne_nil hp (by simp),
            String.intercalate_singleton, ← String.append_assoc]
          exact ⟨_, rfl⟩
      rw [hfront, String.toList_append, List.getLast?_append_of_ne_nil _ hne]
    rw [if_neg, ofLocation, ofLocation, String.intercalate_append_of_ne_nil (l := p ++ [c])
      (by simp) (by simp), String.intercalate_singleton]
    · simp only [String.append_assoc]
    · rw [hlast]
      exact fun h => hc.no_slash (List.mem_of_getLast? h)

theorem hasNul_ofLocation (hplace : ∀ c ∈ place, Node.IsName c) :
    hasNul (ofLocation place) = false := by
  induction place using List.reverseRecOn with
  | nil => decide
  | append_singleton p c ih =>
    have hp : ∀ c ∈ p, Node.IsName c := fun c hc => hplace c (List.mem_append_left _ hc)
    rw [← below_ofLocation hp]
    exact hasNul_below (ih hp) (hplace c (by simp)).no_nul

end Path

namespace Disk

variable {root n : Node} {here p place : Location} {d : Disk}

structure Direct (root : Node) (place : Location) : Prop where
  isName : ∀ c ∈ place, Node.IsName c
  noLink : ∀ p, p <+: place → ∀ target, root.at? p ≠ some (.link target)

namespace Direct

theorem of_at? (hroot : root.WellFormed) (hat : root.at? place = some n)
    (hn : ∀ target, n ≠ .link target) : Direct root place := by
  refine ⟨hroot.isName_of_at? hat, ?_⟩
  rintro p ⟨rest, rfl⟩ target hlink
  rw [Node.at?_append, hlink] at hat
  cases rest with
  | nil =>
    rw [Option.bind_some, Node.at?_nil] at hat
    exact hn target (Option.some.inj hat).symm
  | cons _ _ => simp [Node.at?] at hat

end Direct

theorem resolvePieces_of_direct {onLink : Location → Spelling → String → Resolved} {s : Spelling}
    (h : Direct root (p ++ place)) :
    resolvePieces root here onLink p s place = .place (p ++ place) s := by
  induction place generalizing p with
  | nil => rw [resolvePieces, List.append_nil]
  | cons c rest ih =>
    have hc : Node.IsName c := h.isName c (by simp)
    have hnul : Path.hasNul c = false := by simpa [Path.hasNul] using hc.no_nul
    rw [List.append_cons] at h ⊢
    rw [resolvePieces, if_neg (by simp [hc.ne_empty, hc.ne_dot]), if_neg hc.ne_dots, hnul,
      if_neg Bool.false_ne_true, ih h]
    have htarget : target? root here p s c = none := by
      unfold target?
      split
      · next target hlink => exact absurd hlink (h.noLink _ (List.prefix_append _ _) target)
      · rfl
    rw [htarget]

theorem resolve_of_direct (h : Direct d.root place) :
    d.resolve (Path.ofLocation place) = .place place .fromTop := by
  rw [resolve, startPieces, if_pos (Path.isAbsolute_ofLocation place), Path.pieces_ofLocation]
  simp only [List.drop_succ_cons, List.drop_zero]
  by_cases hne : place = []
  · subst hne
    rfl
  · rw [Path.pieces_intercalate hne fun c hc => (h.isName c hc).no_slash]
    exact resolvePieces_of_direct (p := []) h

theorem locate_listed_missing {directory name : String} {q : Location}
    {entries : List (String × Node)} {access : Access} (hname : Node.IsName name)
    (hshort : name.utf8ByteSize ≤ nameLimit)
    (hdir : d.locate directory = .ok (.node q (.directory entries access)))
    (hchild : Node.child? entries name = none) (hsearch : access.search = true) :
    d.locate (Path.listed directory name) =
      if pathLimit < (Path.listed directory name).utf8ByteSize then .error .nameTooLong
      else .ok (.vacant q name) := by
  have hq := (locate_ok hdir).2
  have hstop : descend d.root q [name] = .found (.vacant q name) := by
    rw [descend, at?_of_locateFrom hq]
    simp [moveOf_name hname, hsearch, Nat.not_lt.2 hshort, hchild]
  have hmore : [name] ≠ [] := by simp
  obtain ⟨left, hleft⟩ := locateFrom_append hq
  rw [locate_listed hname (hasNul_of_locate hdir) (ne_empty_of_locate hdir), hleft hmore,
    locateFrom_of_found hstop]

theorem hides_listed_closed {directory name : String} {q : Location}
    {entries : List (String × Node)} {access : Access} (hname : Node.IsName name)
    (hdir : d.locate directory = .ok (.node q (.directory entries access)))
    (hsearch : access.search = false) : d.Hides (Path.listed directory name) := by
  have hq := (locate_ok hdir).2
  have hmove : moveOf access name = .refused .denied := moveOf_denied hsearch hname.ne_empty
  have hstop : descend d.root q [name] = .fault .denied := by
    rw [descend_cons (at?_of_locateFrom hq), hmove]
  have hmore : [name] ≠ [] := by simp
  obtain ⟨left, hleft⟩ := locateFrom_append hq
  rw [hides_iff, locate_listed hname (hasNul_of_locate hdir) (ne_empty_of_locate hdir), hleft hmore,
    locateFrom_of_fault hstop]
  split
  · exact ⟨_, rfl, rfl⟩
  · exact ⟨_, rfl, rfl⟩

theorem locate_ofLocation_missing {name : String} {entries : List (String × Node)}
    {access : Access} (hplace : ∀ c ∈ place, Node.IsName c) (hname : Node.IsName name)
    (hshort : name.utf8ByteSize ≤ nameLimit)
    (hdir : d.locate (Path.ofLocation place) = .ok (.node place (.directory entries access)))
    (hchild : Node.child? entries name = none) (hsearch : access.search = true) :
    d.locate (Path.ofLocation (place ++ [name])) =
      if pathLimit < (Path.ofLocation (place ++ [name])).utf8ByteSize then .error .nameTooLong
      else .ok (.vacant place name) := by
  rw [← Path.below_ofLocation hplace, Path.below_of_isAbsolute (Path.isAbsolute_ofLocation place)]
  exact locate_listed_missing hname hshort hdir hchild hsearch

section Place

variable {entries : List (String × Node)} {access : Access} (hroot : d.root.WellFormed)
  (hat : d.root.at? place = some (.directory entries access))

include hroot hat

theorem locate_ofLocation :
    d.locate (Path.ofLocation place) = .ok (.node place (.directory entries access)) ∨
      d.Hides (Path.ofLocation place) := by
  induction place using List.reverseRecOn generalizing entries access with
  | nil =>
    have hstop : descend d.root [] [""] = .found (.node [] (.directory entries access)) := by
      rw [descend, hat]
      simp only [moveOf_empty]
      rw [descend, hat]
    have hslash : d.locate "/" = locateFrom d.root linkLimit [] [""] :=
      (locate_eq (by decide) (by decide)).trans (if_neg (by decide))
    exact .inl (hslash.trans (locateFrom_of_found hstop))
  | append_singleton p name ih =>
    obtain ⟨inner, w, hdir, hchild⟩ := Node.at?_append_some hat
    have hname : Node.IsName name := hroot.isName_of_at? hat name (by simp)
    rw [← Path.below_ofLocation (hroot.isName_of_at? hdir)]
    rcases ih hdir with h | h
    · exact locate_below_cases hname h hchild (by simp)
    · have hnul := Path.hasNul_ofLocation (hroot.isName_of_at? hdir)
      rw [Path.below_of_isAbsolute (Path.isAbsolute_ofLocation p)]
      exact .inr (hides_listed hname hnul
        (Path.ne_empty_of_isAbsolute (Path.isAbsolute_ofLocation p)) h)

theorem settle_of_at? : d.settle place = .ok place := by
  unfold settle
  rcases locate_ofLocation hroot hat with h | h
  · simp only [node_eq_ok.2 ⟨_, h⟩]
  · rcases node_of_hides h with h | h <;> simp only [h]

theorem canonical_ofLocation : d.canonical (Path.ofLocation place) = .ok place := by
  have hdirect : Direct d.root place := .of_at? hroot hat (by simp)
  unfold canonical
  simp only [Path.normal_ofLocation hdirect.isName, resolve_of_direct hdirect,
    settle_of_at? hroot hat]

end Place

end Disk

end LeakScan
