import LeakScan.Text.Lines
import Mathlib.Data.List.Infix

namespace LeakScan.Text

/-- Position `i` of a list is the first one whose member has a property. -/
inductive FirstAt {α : Type} (P : α → Prop) : List α → Nat → Prop where
  | here {a : α} {as : List α} : P a → FirstAt P (a :: as) 0
  | later {a : α} {as : List α} {i : Nat} : ¬ P a → FirstAt P as i → FirstAt P (a :: as) (i + 1)

theorem FirstAt.exists_mem {α : Type} {P : α → Prop} {as : List α} {i : Nat}
    (h : FirstAt P as i) : ∃ a ∈ as, P a := by
  induction h with
  | here ha => exact ⟨_, List.mem_cons_self, ha⟩
  | later _ _ ih =>
    obtain ⟨a, hmem, ha⟩ := ih
    exact ⟨a, List.mem_cons_of_mem _ hmem, ha⟩

theorem FirstAt.append_left {α : Type} {P : α → Prop} {as : List α} {i : Nat}
    (h : FirstAt P as i) (bs : List α) : FirstAt P (as ++ bs) i := by
  induction h with
  | here ha => exact .here ha
  | later ha _ ih => exact .later ha ih

theorem FirstAt.append_right {α : Type} {P : α → Prop} {as bs : List α} {i : Nat}
    (has : ∀ a ∈ as, ¬ P a) (h : FirstAt P bs i) : FirstAt P (as ++ bs) (i + as.length) := by
  induction as with
  | nil => exact h
  | cons a as ih =>
    rw [List.forall_mem_cons] at has
    exact .later has.1 (ih has.2)

variable {M : List Char → Prop} {s w : List Char} {c : Char}

@[simp] theorem lines_cons_feed : lines ('\n' :: s) = [] :: lines s := by
  simp [lines]

theorem lines_cons (hc : c ≠ '\n') :
    ∃ l ls, lines s = l :: ls ∧ lines (c :: s) = (c :: l) :: ls := by
  cases hs : lines s with
  | nil => exact absurd hs (lines_ne_nil s)
  | cons l ls => exact ⟨l, ls, rfl, by simp [lines, hc, hs]⟩

theorem lines_eq_splitOn (s : List Char) : lines s = s.splitOn '\n' := by
  induction s with
  | nil => rfl
  | cons c s ih =>
    rw [List.splitOn_cons_eq_if_modifyHead, ← ih]
    by_cases hc : c = '\n'
    · simp [hc]
    · obtain ⟨l, ls, hs, hcs⟩ := lines_cons (s := s) hc
      simp [hc, hs, hcs]

theorem lines_append_feed (s t : List Char) : lines (s ++ '\n' :: t) = lines s ++ lines t := by
  simp only [lines_eq_splitOn, List.splitOn_append_cons_self]

theorem length_lines (s : List Char) : (lines s).length = s.count '\n' + 1 := by
  induction s with
  | nil => rfl
  | cons c s ih =>
    by_cases hc : c = '\n'
    · rw [hc, lines_cons_feed, List.length_cons, ih, List.count_cons_self]
    · obtain ⟨l, ls, hs, hcs⟩ := lines_cons (s := s) hc
      rw [hcs, List.count_cons_of_ne hc, ← ih, hs]
      rfl

theorem feed_not_mem_lines {l : List Char} (h : l ∈ lines s) : '\n' ∉ l := by
  induction s generalizing l with
  | nil =>
    rw [List.mem_singleton.1 h]
    exact List.not_mem_nil
  | cons c s ih =>
    by_cases hc : c = '\n'
    · rw [hc, lines_cons_feed] at h
      cases List.mem_cons.1 h with
      | inl hl =>
        rw [hl]
        exact List.not_mem_nil
      | inr hl => exact ih hl
    · obtain ⟨k, ks, hs, hcs⟩ := lines_cons (s := s) hc
      rw [hs] at ih
      rw [hcs] at h
      cases List.mem_cons.1 h with
      | inl hl =>
        rw [hl, List.mem_cons, not_or]
        exact ⟨Ne.symm hc, ih List.mem_cons_self⟩
      | inr hl => exact ih (List.mem_cons_of_mem k hl)

theorem first_line_prefix {l : List Char} {ls : List (List Char)} (h : lines s = l :: ls) :
    l <+: s := by
  induction s generalizing l ls with
  | nil => simp_all [lines]
  | cons c r ih =>
    by_cases hc : c = '\n'
    · subst hc
      rw [lines_cons_feed] at h
      rw [← (List.cons.inj h).1]
      exact List.nil_prefix
    · obtain ⟨k, ks, hr, hcr⟩ := lines_cons (s := r) hc
      rw [hcr] at h
      rw [← (List.cons.inj h).1]
      exact List.cons_prefix_cons.2 ⟨rfl, ih hr⟩

theorem prefix_first_line (hw : '\n' ∉ w) (h : w <+: s) : ∃ l ls, lines s = l :: ls ∧ w <+: l := by
  obtain ⟨r, rfl⟩ := h
  induction w with
  | nil =>
    cases hr : lines ([] ++ r) with
    | nil => exact absurd hr (lines_ne_nil _)
    | cons l ls => exact ⟨l, ls, rfl, List.nil_prefix⟩
  | cons c w ih =>
    simp only [List.mem_cons, not_or] at hw
    obtain ⟨l, ls, hl, hpre⟩ := ih hw.2
    obtain ⟨k, ks, hk, hck⟩ := lines_cons (s := w ++ r) (Ne.symm hw.1)
    obtain ⟨rfl, rfl⟩ := List.cons.inj (hl.symm.trans hk)
    exact ⟨c :: l, ls, hck, List.cons_prefix_cons.2 ⟨rfl, hpre⟩⟩

theorem infix_cons_of_line {l : List Char} (h : ∃ w, M w ∧ w <:+: l) (c : Char) :
    ∃ w, M w ∧ w <:+: c :: l := by
  obtain ⟨w, hw, hi⟩ := h
  exact ⟨w, hw, List.infix_cons hi⟩

/-- If a word stands at place `i`, and none at an earlier one, then the first line that holds a word
is the one reached after the line feeds before `i`. -/
theorem firstAt_lines {i : Nat} (hM : ∀ w, M w → '\n' ∉ w) (hi : i ≤ s.length)
    (hhere : ∃ w, M w ∧ w <+: s.drop i) (hearlier : ∀ j < i, ¬ ∃ w, M w ∧ w <+: s.drop j) :
    FirstAt (fun l => ∃ w, M w ∧ w <:+: l) (lines s) ((s.take i).count '\n') := by
  induction i generalizing s with
  | zero =>
    obtain ⟨w, hw, hpre⟩ := hhere
    obtain ⟨l, ls, hl, hwl⟩ := prefix_first_line (s := s) (hM w hw) hpre
    rw [hl]
    exact .here ⟨w, hw, hwl.isInfix⟩
  | succ i ih =>
    obtain ⟨c, s, rfl⟩ := List.exists_cons_of_length_pos (Nat.zero_lt_of_lt hi)
    have ih := ih (Nat.le_of_succ_le_succ hi) hhere fun j hj => hearlier (j + 1) (by omega)
    have hstart : ¬ ∃ w, M w ∧ w <+: c :: s := hearlier 0 (by omega)
    rw [List.take_succ_cons]
    by_cases hc : c = '\n'
    · subst hc
      rw [lines_cons_feed, List.count_cons_self]
      refine .later ?_ ih
      rintro ⟨w, hw, hi⟩
      exact hstart ⟨w, hw, by simp [List.eq_nil_of_infix_nil hi]⟩
    · -- The first line grows by `c`; a word that is new in it would begin the whole text.
      obtain ⟨l, ls, hl, hcl⟩ := lines_cons (s := s) hc
      rw [hcl, List.count_cons_of_ne hc]
      rw [hl] at ih
      generalize (s.take i).count '\n' = n at ih
      cases ih with
      | here hP => exact .here (infix_cons_of_line hP c)
      | later hP hrest =>
        refine .later ?_ hrest
        rintro ⟨w, hw, hi⟩
        rcases List.infix_cons_iff.1 hi with hpre | hin
        · refine hstart ⟨w, hw, hpre.trans (List.cons_prefix_cons.2 ⟨rfl, first_line_prefix hl⟩)⟩
        · exact hP ⟨w, hw, hin⟩

theorem lineFrom?_of_firstAt {ls : List (List Char)} {i : Nat} (first : Nat)
    (h : FirstAt (w <:+: ·) ls i) : lineFrom? w first ls = some (first + i) := by
  induction h generalizing first with
  | here hw => simp [lineFrom?, holds_iff_infix.2 hw]
  | @later l _ _ hw _ ih =>
    have hno : holds w l = false := Bool.eq_false_iff.2 (mt holds_iff_infix.1 hw)
    simp [lineFrom?, hno, ih, Nat.add_assoc, Nat.add_comm 1]

theorem lineOf_of_firstAt {i : Nat} (h : FirstAt (w <:+: ·) (lines s) i) : lineOf s w = i + 1 := by
  simp [lineOf, lineFrom?_of_firstAt 1 h, Nat.add_comm]

theorem lineFrom?_eq_none {first : Nat} {ls : List (List Char)} (h : ∀ l ∈ ls, ¬ w <:+: l) :
    lineFrom? w first ls = none := by
  induction ls generalizing first with
  | nil => rfl
  | cons l ls ih =>
    rw [List.forall_mem_cons] at h
    rw [lineFrom?, if_neg (mt holds_iff_infix.1 h.1), ih h.2]

theorem lineFrom?_bounds {first n : Nat} {ls : List (List Char)}
    (h : lineFrom? w first ls = some n) : first ≤ n ∧ n < first + ls.length := by
  induction ls generalizing first with
  | nil => cases h
  | cons l ls ih =>
    rw [lineFrom?] at h
    rw [List.length_cons]
    split at h
    · cases h
      omega
    · have hn := ih h
      omega

theorem lineOf_of_no_line (h : ∀ l ∈ lines s, ¬ w <:+: l) : lineOf s w = 1 := by
  rw [lineOf, lineFrom?_eq_none h]
  rfl

theorem lineOf_of_feed (hw : '\n' ∈ w) : lineOf s w = 1 :=
  lineOf_of_no_line fun _ hl hi => feed_not_mem_lines hl (hi.subset hw)

theorem lineOf_bounds (s w : List Char) : 1 ≤ lineOf s w ∧ lineOf s w ≤ s.count '\n' + 1 := by
  rw [← length_lines, lineOf]
  cases h : lineFrom? w 1 (lines s) with
  | none => exact ⟨Nat.le_refl 1, List.length_pos_of_ne_nil (lines_ne_nil s)⟩
  | some n =>
    have hn := lineFrom?_bounds h
    exact ⟨hn.1, by rw [Option.getD_some]; omega⟩

theorem infix_of_mem_lines {l : List Char} (h : l ∈ lines s) : l <:+: s := by
  induction s generalizing l with
  | nil => simp_all [lines]
  | cons c r ih =>
    by_cases hc : c = '\n'
    · subst hc
      rw [lines_cons_feed] at h
      rcases List.mem_cons.1 h with rfl | h
      · exact List.nil_infix
      · exact List.infix_cons (ih h)
    · obtain ⟨k, ks, hk, hck⟩ := lines_cons (s := r) hc
      rw [hck] at h
      rcases List.mem_cons.1 h with rfl | h
      · exact (List.cons_prefix_cons.2 ⟨rfl, first_line_prefix hk⟩).isInfix
      · exact List.infix_cons (ih (by simp [hk, h]))

end LeakScan.Text
