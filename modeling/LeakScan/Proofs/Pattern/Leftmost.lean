import LeakScan.Pattern.Basic
import Mathlib.Data.List.Infix

namespace LeakScan.Pattern

def StandsAt (p : Pattern) (s : List Char) (i : Nat) : Prop :=
  i ≤ s.length ∧ ∃ w, Matches p w ∧ w <+: s.drop i

/-- A word of the pattern occurs somewhere in a text. -/
def Occurs (p : Pattern) (s : List Char) : Prop := ∃ w, Matches p w ∧ w <:+: s

/-- The first position at which a word of the pattern stands. -/
def Leftmost (p : Pattern) (s : List Char) (i : Nat) : Prop :=
  p.StandsAt s i ∧ ∀ j < i, ¬ p.StandsAt s j

def avoids (c : Char) : Pattern → Bool
  | one accepts => !accepts c
  | nothing => true
  | next p q => p.avoids c && q.avoids c
  | either p q => p.avoids c && q.avoids c
  | many accepts => !accepts c

variable {p : Pattern} {s w : List Char} {c : Char}

theorem not_mem_of_avoids (hp : p.avoids c = true) (hw : Matches p w) : c ∉ w := by
  induction hw with
  | @one accepts a ha =>
    rw [List.mem_singleton]
    rintro rfl
    simp [avoids, ha] at hp
  | nothing => simp
  | next hu hv ihu ihv =>
    simp only [avoids, Bool.and_eq_true] at hp
    rw [List.mem_append]
    exact fun h => h.elim (ihu hp.1) (ihv hp.2)
  | first hu ih =>
    simp only [avoids, Bool.and_eq_true] at hp
    exact ih hp.1
  | second hu ih =>
    simp only [avoids, Bool.and_eq_true] at hp
    exact ih hp.2
  | @many accepts w hw =>
    intro hc
    simp [avoids, hw c hc] at hp

theorem standsAt_zero : p.StandsAt s 0 ↔ ∃ w, Matches p w ∧ w <+: s := by
  simp [StandsAt]

theorem standsAt_succ {i : Nat} : p.StandsAt (c :: s) (i + 1) ↔ p.StandsAt s i := by
  simp [StandsAt]

theorem leftmost_zero : p.Leftmost s 0 ↔ p.StandsAt s 0 := by
  simp [Leftmost]

theorem leftmost_succ {i : Nat} :
    p.Leftmost (c :: s) (i + 1) ↔ ¬ p.StandsAt (c :: s) 0 ∧ p.Leftmost s i := by
  constructor
  · rintro ⟨hat, hfirst⟩
    refine ⟨hfirst 0 (Nat.succ_pos i), standsAt_succ.1 hat, fun j hj hstands => ?_⟩
    exact hfirst (j + 1) (by omega) (standsAt_succ.2 hstands)
  · rintro ⟨hstart, hat, hfirst⟩
    refine ⟨standsAt_succ.2 hat, fun j hj hstands => ?_⟩
    cases j with
    | zero => exact hstart hstands
    | succ j => exact hfirst j (by omega) (standsAt_succ.1 hstands)

theorem Leftmost.unique {i j : Nat} (hi : p.Leftmost s i) (hj : p.Leftmost s j) : i = j := by
  have hij : ¬ i < j := fun h => hj.2 i h hi.1
  have hji : ¬ j < i := fun h => hi.2 j h hj.1
  omega

theorem occurs_iff : p.Occurs s ↔ ∃ i, p.StandsAt s i := by
  constructor
  · rintro ⟨w, hw, a, b, rfl⟩
    exact ⟨a.length, by simp, w, hw, by simp⟩
  · rintro ⟨i, -, w, hw, h⟩
    exact ⟨w, hw, h.isInfix.trans (List.drop_suffix i s).isInfix⟩

theorem wordAt_some (h : p.wordAt s = some w) : Matches p w ∧ w <+: s := by
  obtain ⟨r, hr, hw⟩ := Option.map_eq_some_iff.1 h
  obtain ⟨u, hu, rfl⟩ := mem_rests.1 (List.mem_of_mem_head? hr)
  have hwu : w = u := by rw [← hw]; simp
  exact ⟨hwu ▸ hu, hwu ▸ List.prefix_append u r⟩

theorem wordAt_none (h : p.wordAt s = none) (hw : Matches p w) : ¬ w <+: s := by
  rintro ⟨r, rfl⟩
  have hr : p.rests (w ++ r) = [] := by simpa [wordAt] using h
  have hm : r ∈ p.rests (w ++ r) := mem_rests.2 ⟨w, hw, rfl⟩
  simp [hr] at hm

theorem searchFrom_some {k : Nat} {m : Match} (h : p.searchFrom k s = some m) :
    ∃ i, m.start = k + i ∧ p.Leftmost s i ∧ Matches p m.word ∧ m.word <+: s.drop i := by
  induction s generalizing k with
  | nil =>
    obtain ⟨w, hw, rfl⟩ := Option.map_eq_some_iff.1 h
    obtain ⟨hm, hs⟩ := wordAt_some hw
    exact ⟨0, rfl, leftmost_zero.2 (standsAt_zero.2 ⟨w, hm, hs⟩), hm, hs⟩
  | cons c r ih =>
    rw [searchFrom] at h
    split at h
    · next w hw =>
      obtain rfl := Option.some.inj h
      obtain ⟨hm, hs⟩ := wordAt_some hw
      exact ⟨0, rfl, leftmost_zero.2 (standsAt_zero.2 ⟨w, hm, hs⟩), hm, hs⟩
    · next hw =>
      obtain ⟨i, hi, hleft, hm, hs⟩ := ih h
      refine ⟨i + 1, by omega, leftmost_succ.2 ⟨fun hstands => ?_, hleft⟩, hm, hs⟩
      obtain ⟨u, hu, hpre⟩ := standsAt_zero.1 hstands
      exact wordAt_none hw hu hpre

theorem searchFrom_none {k : Nat} (h : p.searchFrom k s = none) (i : Nat) : ¬ p.StandsAt s i := by
  induction s generalizing k i with
  | nil =>
    rintro ⟨hi, w, hw, hpre⟩
    have hnone : p.wordAt [] = none := by simpa [searchFrom] using h
    exact wordAt_none hnone hw (by simpa using hpre)
  | cons c r ih =>
    rw [searchFrom] at h
    split at h
    · simp at h
    · next hw =>
      intro hstands
      cases i with
      | zero =>
        obtain ⟨u, hu, hpre⟩ := standsAt_zero.1 hstands
        exact wordAt_none hw hu hpre
      | succ i => exact ih h i (standsAt_succ.1 hstands)

theorem search_some {m : Match} (h : p.search s = some m) :
    p.Leftmost s m.start ∧ Matches p m.word ∧ m.word <+: s.drop m.start := by
  obtain ⟨i, hi, hl, hm, hs⟩ := searchFrom_some h
  have hstart : m.start = i := by omega
  rw [hstart]
  exact ⟨hl, hm, hs⟩

theorem isSome_search : (p.search s).isSome = true ↔ p.Occurs s := by
  rw [occurs_iff]
  constructor
  · intro h
    obtain ⟨m, hm⟩ := Option.isSome_iff_exists.1 h
    exact ⟨m.start, (search_some hm).1.1⟩
  · rintro ⟨i, hi⟩
    by_contra hnone
    exact searchFrom_none (Option.not_isSome_iff_eq_none.1 hnone) i hi

instance (p : Pattern) (s : List Char) : Decidable (p.Occurs s) := decidable_of_iff _ isSome_search

end LeakScan.Pattern
