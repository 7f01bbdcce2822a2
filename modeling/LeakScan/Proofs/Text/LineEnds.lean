import LeakScan.Proofs.Pattern.Leftmost
import LeakScan.Proofs.Text.FirstLine

namespace LeakScan

namespace Text

def lineEnds : List Char → Nat
  | [] => 0
  | '\r' :: '\n' :: s => lineEnds s + 1
  | c :: s => if c = '\r' ∨ c = '\n' then lineEnds s + 1 else lineEnds s

/-- The lines of a text between its line ends; there is always at least one. -/
def sourceLines : List Char → List (List Char)
  | [] => [[]]
  | '\r' :: '\n' :: s => [] :: sourceLines s
  | c :: s =>
    if c = '\r' ∨ c = '\n' then [] :: sourceLines s else (sourceLines s).modifyHead (c :: ·)

def endings : List (List Char) := [['\n'], ['\r', '\n'], ['\r']]

/-- The text has no line end. -/
def Unbroken (w : List Char) : Prop := '\r' ∉ w ∧ '\n' ∉ w

variable {s t w : List Char} {c : Char}

theorem unbroken_cons : Unbroken (c :: w) ↔ ¬ (c = '\r' ∨ c = '\n') ∧ Unbroken w := by
  simp only [Unbroken, List.mem_cons, not_or, eq_comm (a := c)]
  tauto

theorem lines_cons_of_ne (hc : c ≠ '\n') : lines (c :: s) = (lines s).modifyHead (c :: ·) := by
  obtain ⟨l, ls, hs, hcs⟩ := lines_cons (s := s) hc
  rw [hs, hcs]
  rfl

theorem lines_uniformLineEnds (s : List Char) : lines (uniformLineEnds s) = sourceLines s := by
  fun_induction uniformLineEnds s with
  | case1 => rfl
  | case2 s ih => rw [lines_cons_feed, ih, sourceLines]
  | case3 c s h ih =>
    rw [sourceLines.eq_3 c s h]
    by_cases hr : c = '\r'
    · simp [hr, ih]
    · by_cases hn : c = '\n'
      · simp [hn, ih]
      · simp [hr, hn, lines_cons_of_ne, ih]

theorem intercalate_lines (s : List Char) : ['\n'].intercalate (lines s) = s := by
  rw [lines_eq_splitOn, List.intercalate_splitOn]

theorem uniformLineEnds_eq_iff :
    uniformLineEnds s = uniformLineEnds t ↔ sourceLines s = sourceLines t := by
  rw [← lines_uniformLineEnds, ← lines_uniformLineEnds]
  constructor
  · intro h
    rw [h]
  · intro h
    rw [← intercalate_lines (uniformLineEnds s), h, intercalate_lines]

theorem sourceLines_append (hw : Unbroken w) (s : List Char) :
    sourceLines (w ++ s) = (sourceLines s).modifyHead (w ++ ·) := by
  induction w with
  | nil => cases h : sourceLines s <;> simp [h]
  | cons c w ih =>
    obtain ⟨hc, hw⟩ := unbroken_cons.1 hw
    have hr : ¬ c = '\r' := fun h => hc (.inl h)
    rw [List.cons_append, sourceLines.eq_3 _ _ (fun _ h _ => hr h), if_neg hc, ih hw,
      List.modifyHead_modifyHead]
    rfl

theorem sourceLines_intercalate {e : List Char} (he : e ∈ endings) {ls : List (List Char)}
    (hne : ls ≠ []) (hls : ∀ l ∈ ls, Unbroken l) : sourceLines (e.intercalate ls) = ls := by
  induction ls with
  | nil => exact absurd rfl hne
  | cons l ls ih =>
    have hl := hls l List.mem_cons_self
    cases ls with
    | nil =>
      have h := sourceLines_append hl []
      simpa [sourceLines] using h
    | cons k ks =>
      have ih := ih (by simp) fun l h => hls l (List.mem_cons_of_mem _ h)
      have hend : sourceLines (e ++ e.intercalate (k :: ks)) =
          [] :: sourceLines (e.intercalate (k :: ks)) := by
        simp only [endings, List.mem_cons, List.not_mem_nil, or_false] at he
        rcases he with rfl | rfl | rfl
        · rfl
        · rfl
        · -- A line feed at the start of the rest would belong to the return before it.
          refine sourceLines.eq_3 '\r' _ fun r _ hr => ?_
          have hk := (hls k (by simp)).2
          cases k with
          | nil => cases ks <;> simp at hr
          | cons a k => cases ks <;> simp_all
      rw [List.intercalate_cons_cons, List.append_assoc, sourceLines_append hl, hend, ih]
      simp

theorem prefix_uniformLineEnds (hw : Unbroken w) : w <+: uniformLineEnds s ↔ w <+: s := by
  induction w generalizing s with
  | nil => simp
  | cons a w ih =>
    obtain ⟨ha, hw⟩ := unbroken_cons.1 hw
    fun_cases uniformLineEnds s with
    | case1 => rfl
    | case2 s =>
      simp only [List.cons_prefix_cons]
      tauto
    | case3 c s h =>
      rw [List.cons_prefix_cons, List.cons_prefix_cons, ih hw]
      refine and_congr_left fun _ => ?_
      by_cases hc : c = '\r'
      · rw [if_pos hc, hc]
        tauto
      · rw [if_neg hc]

theorem prefix_cons_iff_nil (hw : Unbroken w) (hc : c = '\r' ∨ c = '\n') :
    w <+: c :: s ↔ w = [] := by
  cases w with
  | nil => simp
  | cons a w =>
    rw [List.cons_prefix_cons]
    refine ⟨?_, by simp⟩
    rintro ⟨rfl, -⟩
    exact absurd hc (unbroken_cons.1 hw).1

theorem infix_uniformLineEnds (hw : Unbroken w) : w <:+: uniformLineEnds s ↔ w <:+: s := by
  fun_induction uniformLineEnds s with
  | case1 => rfl
  | case2 s ih =>
    rw [List.infix_cons_iff, List.infix_cons_iff, List.infix_cons_iff, ih,
      prefix_cons_iff_nil hw (.inl rfl), prefix_cons_iff_nil hw (.inr rfl),
      prefix_cons_iff_nil hw (.inr rfl), or_self_left]
  | case3 c s h ih =>
    have hpre := prefix_uniformLineEnds (s := c :: s) hw
    rw [uniformLineEnds.eq_3 c s h] at hpre
    rw [List.infix_cons_iff, List.infix_cons_iff, ih, hpre]

theorem lineEnds_take_succ (h : ∀ r, c = '\r' → s = '\n' :: r → False) (i : Nat) :
    lineEnds ((c :: s).take (i + 1)) =
      [if c = '\r' then '\n' else c].count '\n' + lineEnds (s.take i) := by
  have htake (r : List Char) (hc : c = '\r') (hr : s.take i = '\n' :: r) : False := by
    cases s with
    | nil => simp at hr
    | cons a s =>
      cases i with
      | zero => simp at hr
      | succ i =>
        rw [List.take_succ_cons] at hr
        exact h s hc (by rw [(List.cons.inj hr).1])
  rw [List.take_succ_cons, lineEnds.eq_3 _ _ htake]
  by_cases hr : c = '\r'
  · simp [hr, Nat.add_comm]
  · by_cases hn : c = '\n'
    · simp [hn, Nat.add_comm]
    · simp [hr, hn]

end Text

namespace Pattern

variable {p : Pattern} {s : List Char} {j : Nat}

/-- No word of the pattern has a line end. -/
def Unbroken (p : Pattern) : Prop := ∀ w, Matches p w → Text.Unbroken w

theorem occurs_uniformLineEnds (hp : p.Unbroken) :
    p.Occurs (Text.uniformLineEnds s) ↔ p.Occurs s :=
  exists_congr fun w => and_congr_right fun hw => Text.infix_uniformLineEnds (hp w hw)

theorem standsAt_zero_uniformLineEnds (hp : p.Unbroken) :
    p.StandsAt (Text.uniformLineEnds s) 0 ↔ p.StandsAt s 0 := by
  rw [standsAt_zero, standsAt_zero]
  exact exists_congr fun w => and_congr_right fun hw => Text.prefix_uniformLineEnds (hp w hw)

theorem leftmost_of_uniformLineEnds (hp : p.Unbroken)
    (h : p.Leftmost (Text.uniformLineEnds s) j) :
    ∃ i, p.Leftmost s i ∧
      Text.lineEnds (s.take i) = ((Text.uniformLineEnds s).take j).count '\n' := by
  have hstart := standsAt_zero_uniformLineEnds (s := s) hp
  fun_induction Text.uniformLineEnds s generalizing j with
  | case1 =>
    obtain rfl : j = 0 := by simpa using h.1.1
    exact ⟨0, h, rfl⟩
  | case2 s ih =>
    cases j with
    | zero => exact ⟨0, leftmost_zero.2 (hstart.1 h.1), rfl⟩
    | succ j =>
      obtain ⟨hnot, h⟩ := leftmost_succ.1 h
      obtain ⟨i, hi, hcount⟩ := ih h (standsAt_zero_uniformLineEnds hp)
      -- Between the two marks only the empty word could stand, and it would stand before them.
      have hbetween : ¬ p.StandsAt ('\n' :: s) 0 := by
        rw [standsAt_zero] at hnot ⊢
        rintro ⟨w, hw, hpre⟩
        rw [Text.prefix_cons_iff_nil (hp w hw) (.inr rfl)] at hpre
        exact hnot ⟨w, hw, hpre ▸ List.nil_prefix⟩
      refine ⟨i + 2, ?_, ?_⟩
      · exact leftmost_succ.2 ⟨mt hstart.2 hnot, leftmost_succ.2 ⟨hbetween, hi⟩⟩
      · simp [Text.lineEnds, hcount]
  | case3 c s hc ih =>
    cases j with
    | zero => exact ⟨0, leftmost_zero.2 (hstart.1 h.1), rfl⟩
    | succ j =>
      obtain ⟨hnot, h⟩ := leftmost_succ.1 h
      obtain ⟨i, hi, hcount⟩ := ih h (standsAt_zero_uniformLineEnds hp)
      refine ⟨i + 1, leftmost_succ.2 ⟨mt hstart.2 hnot, hi⟩, ?_⟩
      rw [Text.lineEnds_take_succ hc, hcount, List.take_succ_cons, ← List.count_append]
      rfl

end Pattern

end LeakScan
