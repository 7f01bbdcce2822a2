import LeakScan.Proofs.Text.FirstLine
import Mathlib.Data.Nat.Find

namespace LeakScan.Text

variable {s t w : List Char} {i j : Nat}

/-- A word stands at place `i` of a text, and at no earlier one. -/
structure FirstPlace (w s : List Char) (i : Nat) : Prop where
  within : i ≤ s.length
  here : w <+: s.drop i
  earlier : ∀ j < i, ¬ w <+: s.drop j

theorem FirstPlace.unique (hi : FirstPlace w s i) (hj : FirstPlace w s j) : i = j := by
  have hle : ¬ i < j := fun h => hj.earlier i h hi.here
  have hge : ¬ j < i := fun h => hi.earlier j h hj.here
  omega

theorem exists_firstPlace (h : w <:+: s) : ∃ i, FirstPlace w s i := by
  obtain ⟨a, b, rfl⟩ := h
  have hhere : w <+: (a ++ w ++ b).drop a.length := by simp
  have hsome : ∃ i, w <+: (a ++ w ++ b).drop i := ⟨a.length, hhere⟩
  classical
  refine ⟨Nat.find hsome, ?_, Nat.find_spec hsome, fun j => Nat.find_min hsome⟩
  calc Nat.find hsome ≤ a.length := Nat.find_min' hsome hhere
    _ ≤ (a ++ w ++ b).length := by simp

theorem FirstPlace.firstAt (h : FirstPlace w s i) (hw : '\n' ∉ w) :
    FirstAt (w <:+: ·) (lines s) ((s.take i).count '\n') := by
  have hf := firstAt_lines (M := (· = w)) (fun _ he => he ▸ hw) h.within ⟨w, rfl, h.here⟩
    (by simpa using h.earlier)
  simpa using hf

theorem FirstPlace.lineOf_eq (h : FirstPlace w s i) (hw : '\n' ∉ w) :
    lineOf s w = (s.take i).count '\n' + 1 :=
  lineOf_of_firstAt (h.firstAt hw)

theorem exists_firstAt_lines (hw : '\n' ∉ w) (h : w <:+: s) :
    ∃ n, FirstAt (w <:+: ·) (lines s) n := by
  obtain ⟨i, hi⟩ := exists_firstPlace h
  exact ⟨_, hi.firstAt hw⟩

theorem infix_iff_line (hw : '\n' ∉ w) : w <:+: s ↔ ∃ l ∈ lines s, w <:+: l := by
  constructor
  · intro h
    obtain ⟨n, hn⟩ := exists_firstAt_lines hw h
    exact hn.exists_mem
  · rintro ⟨l, hl, hi⟩
    exact hi.trans (infix_of_mem_lines hl)

theorem lineOf_of_absent (h : ¬ w <:+: s) : lineOf s w = 1 :=
  lineOf_of_no_line fun _ hl hi => h (hi.trans (infix_of_mem_lines hl))

theorem lineOf_append_of_left (hw : '\n' ∉ w) (hs : w <:+: s) :
    lineOf (s ++ '\n' :: t) w = lineOf s w := by
  obtain ⟨n, hn⟩ := exists_firstAt_lines hw hs
  have happend : FirstAt (w <:+: ·) (lines (s ++ '\n' :: t)) n := by
    rw [lines_append_feed]
    exact hn.append_left _
  rw [lineOf_of_firstAt happend, lineOf_of_firstAt hn]

theorem lineOf_append_of_right (hw : '\n' ∉ w) (hs : ¬ w <:+: s) (ht : w <:+: t) :
    lineOf (s ++ '\n' :: t) w = lineOf t w + (lines s).length := by
  obtain ⟨n, hn⟩ := exists_firstAt_lines hw ht
  have hnone : ∀ l ∈ lines s, ¬ w <:+: l := fun l hl hi => hs ((infix_iff_line hw).2 ⟨l, hl, hi⟩)
  have happend : FirstAt (w <:+: ·) (lines (s ++ '\n' :: t)) (n + (lines s).length) := by
    rw [lines_append_feed]
    exact hn.append_right hnone
  rw [lineOf_of_firstAt happend, lineOf_of_firstAt hn]
  omega

/-- A word without line feeds that a text holds is told to be on the line where it first begins; a
word with a line feed, or one that the text does not hold, on the first line. The line told is always
one of the text. Where a line feed joins two texts, the first of them that holds the word tells its
line, and the lines of the second are counted on from those of the first. -/
theorem line_by_place (s w : List Char) :
    ('\n' ∉ w → w <:+: s →
      ∃ i, FirstPlace w s i ∧ lineOf s w = 1 + (s.take i).count '\n') ∧
    ('\n' ∈ w ∨ ¬ w <:+: s → lineOf s w = 1) ∧
    (1 ≤ lineOf s w ∧ lineOf s w ≤ (s.splitOn '\n').length) ∧
    ∀ a b : List Char, '\n' ∉ w →
      (w <:+: a → lineOf (a ++ '\n' :: b) w = lineOf a w) ∧
      (¬ w <:+: a → w <:+: b →
        lineOf (a ++ '\n' :: b) w = lineOf b w + (a.splitOn '\n').length) := by
  refine ⟨fun hw h => ?_, fun h => ?_, ?_, fun a b hw => ⟨?_, ?_⟩⟩
  · obtain ⟨i, hi⟩ := exists_firstPlace h
    exact ⟨i, hi, by rw [hi.lineOf_eq hw, Nat.add_comm]⟩
  · exact h.elim lineOf_of_feed lineOf_of_absent
  · rw [← lines_eq_splitOn, length_lines]
    exact lineOf_bounds s w
  · exact lineOf_append_of_left hw
  · rw [← lines_eq_splitOn]
    exact lineOf_append_of_right hw

def monkeyAndKey : List Char := "\nmonkey\nkey\n".toList

theorem line_by_place_inside_word :
    lineOf monkeyAndKey "key".toList = 2 ∧ lineOf monkeyAndKey "y\nk".toList = 1 ∧
      lineOf (monkeyAndKey ++ '\n' :: "no key".toList) "key".toList = 2 ∧
      lineOf (monkeyAndKey ++ '\n' :: "no lock".toList) "lock".toList = 5 := by
  have hkey := line_by_place monkeyAndKey "key".toList
  obtain ⟨i, hi, hline⟩ := hkey.1 (by decide) (by decide)
  have hplace : FirstPlace "key".toList monkeyAndKey 4 := ⟨by decide, by decide, by decide⟩
  obtain rfl := hi.unique hplace
  refine ⟨hline, ?_, ?_, ?_⟩
  · exact (line_by_place monkeyAndKey "y\nk".toList).2.1 (.inl (by decide))
  · have hfirst := (hkey.2.2.2 monkeyAndKey "no key".toList (by decide)).1 (by decide)
    exact hfirst.trans hline
  · have hlock := line_by_place "no lock".toList "lock".toList
    exact (hlock.2.2.2 monkeyAndKey _ (by decide)).2 (by decide) (by decide)

end LeakScan.Text
