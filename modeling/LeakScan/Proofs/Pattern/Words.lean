import LeakScan.Proofs.Pattern.Implies

namespace LeakScan.Pattern

variable {p q : Pattern} {ps : List Pattern} {accepts : Char → Bool} {w : List Char}

theorem matches_one : Matches (one accepts) w ↔ ∃ c, accepts c = true ∧ w = [c] := by
  constructor
  · intro h
    cases h with
    | one hc => exact ⟨_, hc, rfl⟩
  · rintro ⟨c, hc, rfl⟩
    exact .one hc

theorem matches_nothing : Matches nothing w ↔ w = [] := by
  constructor
  · intro h
    cases h
    rfl
  · rintro rfl
    exact .nothing

theorem matches_many : Matches (many accepts) w ↔ ∀ c ∈ w, accepts c = true := by
  constructor
  · intro h
    cases h with
    | many hall => exact hall
  · exact .many

theorem matches_next :
    Matches (next p q) w ↔ ∃ u v, Matches p u ∧ Matches q v ∧ w = u ++ v := by
  constructor
  · intro h
    cases h with
    | next hu hv => exact ⟨_, _, hu, hv, rfl⟩
  · rintro ⟨u, v, hu, hv, rfl⟩
    exact .next hu hv

theorem matches_either : Matches (either p q) w ↔ Matches p w ∨ Matches q w := by
  constructor
  · intro h
    cases h with
    | first h => exact .inl h
    | second h => exact .inr h
  · rintro (h | h)
    · exact .first h
    · exact .second h

theorem matches_all_cons :
    Matches (all (p :: ps)) w ↔ ∃ u v, Matches p u ∧ Matches (all ps) v ∧ w = u ++ v := by
  cases ps with
  | nil => simp [all, matches_nothing]
  | cons q ps => exact matches_next

theorem matches_any : Matches (any p ps) w ↔ ∃ q ∈ p :: ps, Matches q w := by
  induction ps generalizing p with
  | nil => simp [any]
  | cons q ps ih => simp only [any, matches_either, ih, List.exists_mem_cons_iff]

theorem matches_all_letters {classOf : Char → Char → Bool} {f : Char → Char} {letters : List Char}
    (h : ∀ a ∈ letters, ∀ c, classOf a c = true ↔ f c = a) :
    Matches (all (letters.map fun a => one (classOf a))) w ↔ w.map f = letters := by
  induction letters generalizing w with
  | nil => rw [List.map_nil, all, matches_nothing, List.map_eq_nil_iff]
  | cons a letters ih =>
    rw [List.forall_mem_cons] at h
    rw [List.map_cons, matches_all_cons, List.map_eq_cons_iff]
    constructor
    · rintro ⟨u, v, hu, hv, rfl⟩
      obtain ⟨c, hc, rfl⟩ := matches_one.1 hu
      exact ⟨c, v, rfl, (h.1 c).1 hc, (ih h.2).1 hv⟩
    · rintro ⟨c, v, rfl, hc, hv⟩
      exact ⟨[c], v, matches_one.2 ⟨c, (h.1 c).2 hc, rfl⟩, (ih h.2).2 hv, rfl⟩

theorem matches_word {t : String} : Matches (word t) w ↔ w = t.toList := by
  rw [word, matches_all_letters (f := id) fun a _ c => by simp, List.map_id]

def PrefixFree (L : List Char → Prop) : Prop := ∀ u v, L u → L v → u <+: v → u = v

variable {L : List Char → Prop}

theorem prefixFree_of_length {n : Nat} (h : ∀ w, L w → w.length = n) : PrefixFree L := by
  intro u v hu hv huv
  exact huv.eq_of_length ((h u hu).trans (h v hv).symm)

theorem PrefixFree.unique (h : PrefixFree L) {u v s : List Char} (hu : L u) (hv : L v)
    (hus : u <+: s) (hvs : v <+: s) : u = v := by
  rcases List.prefix_or_prefix_of_prefix hus hvs with huv | hvu
  · exact h u v hu hv huv
  · exact (h v u hv hu hvu).symm

theorem search_told (hL : ∀ w, Matches p w ↔ L w) (hfree : PrefixFree L) (s : List Char) :
    (p.search s = none ↔ ∀ w, L w → ¬ w <:+: s) ∧
    ∀ m, p.search s = some m →
      m.stop ≤ s.length ∧ (s.take m.stop).drop m.start = m.word ∧ L m.word ∧
      (∀ i < m.start, ∀ w, L w → ¬ w <+: s.drop i) ∧
      ∀ w, L w → w <+: s.drop m.start → w = m.word := by
  constructor
  · rw [← Option.not_isSome_iff_eq_none, isSome_search, Occurs]
    simp only [hL, not_exists, not_and]
  · intro m hm
    obtain ⟨⟨⟨hstart, -⟩, hfirst⟩, hword, hprefix⟩ := search_some hm
    have hmL := (hL m.word).1 hword
    have hstop : m.word.length ≤ s.length - m.start := by
      simpa using hprefix.length_le
    refine ⟨?_, ?_, hmL, fun i hi w hw hwi => ?_, fun w hw hws => ?_⟩
    · rw [Match.stop]
      omega
    · rw [List.drop_take, Match.stop, Nat.add_sub_cancel_left]
      exact (List.prefix_iff_eq_take.1 hprefix).symm
    · exact hfirst i hi ⟨by omega, w, (hL w).2 hw, hwi⟩
    · exact hfree.unique hw hmL hws hprefix

end LeakScan.Pattern
