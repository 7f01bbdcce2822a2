import LeakScan.Proofs.Document.Lines

namespace LeakScan.Pattern

def Implies (q p : Pattern) : Prop := ∀ w, Matches q w → p.Occurs w

variable {p q : Pattern} {s w : List Char} {a b : Char → Bool} {m n : Nat}

theorem matches_times :
    Matches (times n (one a)) w ↔ w.length = n ∧ ∀ c ∈ w, a c = true := by
  induction n generalizing w with
  | zero =>
    constructor
    · intro h
      cases h
      simp
    · rintro ⟨hlength, -⟩
      rw [List.eq_nil_of_length_eq_zero hlength]
      exact .nothing
  | succ n ih =>
    constructor
    · intro h
      cases h with
      | next hu hv =>
        cases hu with
        | one hc =>
          obtain ⟨hlength, hall⟩ := ih.1 hv
          exact ⟨by simp [hlength], by simpa [hc] using hall⟩
    · rintro ⟨hlength, hall⟩
      cases w with
      | nil => simp at hlength
      | cons c w =>
        rw [List.forall_mem_cons] at hall
        have hw := ih.2 ⟨Nat.succ.inj hlength, hall.2⟩
        exact .next (.one hall.1) hw

theorem times_implies_times (hmn : m ≤ n) (hba : ∀ c, b c = true → a c = true) :
    (times n (one b)).Implies (times m (one a)) := by
  intro w hw
  obtain ⟨hlength, hall⟩ := matches_times.1 hw
  refine ⟨w.take m, matches_times.2 ⟨?_, fun c hc => ?_⟩, (List.take_prefix m w).isInfix⟩
  · exact List.length_take_of_le (hlength ▸ hmn)
  · exact hba c (hall c (List.mem_of_mem_take hc))

theorem Implies.after (h : q.Implies p) (r : Pattern) : (next r q).Implies p := by
  intro w hw
  cases hw with
  | @next _ _ u v _ hv =>
    obtain ⟨word, hword, hin⟩ := h v hv
    exact ⟨word, hword, hin.trans (List.suffix_append u v).isInfix⟩

theorem Implies.occurs (h : q.Implies p) (hq : q.Occurs s) : p.Occurs s := by
  obtain ⟨w, hw, hin⟩ := hq
  obtain ⟨word, hword, hinner⟩ := h w hw
  exact ⟨word, hword, hinner.trans hin⟩

theorem Leftmost.le {i j : Nat} (hi : p.Leftmost s i) (hj : p.StandsAt s j) : i ≤ j :=
  Nat.le_of_not_lt fun hlt => hi.2 j hlt hj

/-- An implied word comes first before the implying word or inside it, so that no line ends between
the two if the implying word is first. -/
theorem Implies.count_le (h : q.Implies p) (hq : q.avoids '\n' = true) {i j : Nat}
    (hi : p.Leftmost s i) (hj : q.Leftmost s j) :
    (s.take i).count '\n' ≤ (s.take j).count '\n' := by
  obtain ⟨⟨hjs, w, hw, tail, htail⟩, -⟩ := hj
  obtain ⟨word, hword, before, after, heq⟩ := h w hw
  have hfeed : '\n' ∉ before := fun hc =>
    not_mem_of_avoids hq hw (heq ▸ List.mem_append_left _ (List.mem_append_left _ hc))
  have hdrop : s.drop j = before ++ (word ++ (after ++ tail)) := by
    rw [← htail, ← heq]
    simp
  have hstands : p.StandsAt s (j + before.length) := by
    have hlength := congrArg List.length hdrop
    rw [List.length_drop, List.length_append] at hlength
    refine ⟨by omega, word, hword, after ++ tail, ?_⟩
    rw [← List.drop_drop, hdrop, List.drop_left]
  have htake : s.take (j + before.length) = s.take j ++ before := by
    rw [List.take_add, hdrop, List.take_left]
  calc (s.take i).count '\n'
      ≤ (s.take (j + before.length)).count '\n' :=
        ((List.take_prefix_take_left (hi.le hstands)).sublist).count_le _
    _ = (s.take j).count '\n' := by
        rw [htake, List.count_append, List.count_eq_zero.2 hfeed, Nat.add_zero]

theorem Implies.search (h : q.Implies p) (hp : p.avoids '\n' = true) (hq : q.avoids '\n' = true)
    {found : Match} (hfound : q.search s = some found) :
    ∃ implied, p.search s = some implied ∧
      Text.lineOf s implied.word ≤ Text.lineOf s found.word := by
  have hoccurs : p.Occurs s := h.occurs (isSome_search.1 (by rw [hfound]; rfl))
  obtain ⟨implied, himplied⟩ := Option.isSome_iff_exists.1 (isSome_search.2 hoccurs)
  have hcount := h.count_le hq (search_some himplied).1 (search_some hfound).1
  refine ⟨implied, himplied, ?_⟩
  rw [lineOf_match hp himplied, lineOf_match hq hfound]
  exact Nat.succ_le_succ hcount

end LeakScan.Pattern
