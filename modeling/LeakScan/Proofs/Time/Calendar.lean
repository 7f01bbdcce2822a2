import LeakScan.Time.Moment
import Mathlib.Order.Lattice
import Mathlib.Tactic.SplitIfs

namespace LeakScan

variable {year month day left n start p q u v : Nat} {a b d : Date} {rest : Prop}

def yearLength (year : Nat) : Nat := if isLeap year then 366 else 365

structure Date.Valid (d : Date) : Prop where
  year_pos : 0 < d.year
  year_le : d.year ≤ 9999
  month_pos : 0 < d.month
  month_le : d.month ≤ 12
  day_pos : 0 < d.day
  day_le : d.day ≤ daysInMonth d.year d.month

theorem le_of_blocks {first length : Nat → Nat}
    (hnext : ∀ p, start ≤ p → first (p + 1) = first p + length p) (hp : start ≤ p) (h : p < q) :
    first p + length p ≤ first q := by
  induction q, h using Nat.le_induction with
  | base => exact Nat.le_of_eq (hnext p hp).symm
  | succ q hq ih =>
    rw [hnext q (by omega)]
    omega

/-- What is numbered in blocks that follow each other comes in the order of the blocks, then in that
of the places in one block, and then in the order of the rest. -/
theorem lt_or_iff_of_blocks (first length : Nat → Nat)
    (hnext : ∀ p, start ≤ p → first (p + 1) = first p + length p) (hp : start ≤ p) (hq : start ≤ q)
    (hu : u < length p) (hv : v < length q) :
    (first p + u < first q + v ∨ first p + u = first q + v ∧ rest) ↔
      p < q ∨ p = q ∧ (u < v ∨ u = v ∧ rest) := by
  rcases Nat.lt_trichotomy p q with h | rfl | h
  · have hle := le_of_blocks hnext hp h
    exact iff_of_true (.inl (by omega)) (.inl h)
  · simp
  · have hle := le_of_blocks hnext hq h
    refine iff_of_false ?_ ?_ <;> omega

theorem lt_or_iff_of_places (hu : u < n) (hv : v < n) :
    (p * n + u < q * n + v ∨ p * n + u = q * n + v ∧ rest) ↔
      p < q ∨ p = q ∧ (u < v ∨ u = v ∧ rest) :=
  lt_or_iff_of_blocks (· * n) (fun _ => n) (fun p _ => Nat.succ_mul p n) p.zero_le q.zero_le hu hv

theorem isLeap_iff : isLeap year = true ↔ year % 4 = 0 ∧ (year % 100 ≠ 0 ∨ year % 400 = 0) := by
  simp [isLeap]

theorem daysBeforeYear_succ (year : Nat) (h : 0 < year) :
    daysBeforeYear (year + 1) = daysBeforeYear year + yearLength year := by
  obtain ⟨n, rfl⟩ := Nat.exists_eq_add_of_le' h
  have hle : n / 100 ≤ n := Nat.div_le_self n 100
  have hcentury : 100 ∣ n + 1 → 4 ∣ n + 1 := Nat.dvd_trans (by decide)
  have hera : 400 ∣ n + 1 → 100 ∣ n + 1 := Nat.dvd_trans (by decide)
  simp only [daysBeforeYear, yearLength, isLeap_iff, Nat.add_sub_cancel, Nat.succ_div,
    ← Nat.dvd_iff_mod_eq_zero, ne_eq]
  generalize n / 4 = fours, n / 100 = centuries, n / 400 = eras at *
  grind

theorem daysInMonth_le (year month : Nat) : daysInMonth year month ≤ 31 := by
  unfold daysInMonth
  split
  · split <;> decide
  all_goals decide

theorem daysBeforeMonth_succ (year month : Nat) (h : 0 < month) :
    daysBeforeMonth year (month + 1) = daysBeforeMonth year month + daysInMonth year month := by
  obtain ⟨m, rfl⟩ := Nat.exists_eq_add_of_le' h
  simp [daysBeforeMonth, List.range_succ]

theorem daysBeforeMonth_end (year : Nat) : daysBeforeMonth year 13 = yearLength year := by
  cases h : isLeap year <;> simp [daysBeforeMonth, yearLength, List.range_succ, daysInMonth, h]

theorem yearLength_ge (year : Nat) : 365 ≤ yearLength year := by
  unfold yearLength
  split_ifs <;> omega

namespace Date

def dayOfYear (d : Date) : Nat := daysBeforeMonth d.year d.month + (d.day - 1)

theorem days_eq (d : Date) : d.days = daysBeforeYear d.year + d.dayOfYear := by
  rw [days, dayOfYear, Nat.add_assoc]

theorem Valid.dayOfYear_lt (h : d.Valid) : d.dayOfYear < yearLength d.year := by
  have hmonth := h.month_le
  have hend := le_of_blocks (daysBeforeMonth_succ d.year) h.month_pos (by omega : d.month < 13)
  have hpos := h.day_pos
  have hday := h.day_le
  rw [daysBeforeMonth_end] at hend
  rw [dayOfYear]
  omega

theorem dayOfYear_lt_or_iff (ha : a.Valid) (hb : b.Valid) (hyear : a.year = b.year) :
    (a.dayOfYear < b.dayOfYear ∨ a.dayOfYear = b.dayOfYear ∧ rest) ↔ a.month < b.month ∨
      a.month = b.month ∧ (a.day < b.day ∨ a.day = b.day ∧ rest) := by
  have hapos := ha.day_pos
  have hbpos := hb.day_pos
  have hale := ha.day_le
  have hble := hb.day_le
  rw [hyear] at hale
  have hlt : a.day - 1 < b.day - 1 ↔ a.day < b.day := by omega
  have heq : a.day - 1 = b.day - 1 ↔ a.day = b.day := by omega
  rw [dayOfYear, dayOfYear, hyear, lt_or_iff_of_blocks _ _ (daysBeforeMonth_succ b.year)
    ha.month_pos hb.month_pos (by omega) (by omega), hlt, heq]

theorem days_lt_or_iff (ha : a.Valid) (hb : b.Valid) :
    (a.days < b.days ∨ a.days = b.days ∧ rest) ↔ a.year < b.year ∨ a.year = b.year ∧
      (a.month < b.month ∨ a.month = b.month ∧ (a.day < b.day ∨ a.day = b.day ∧ rest)) := by
  rw [days_eq, days_eq, lt_or_iff_of_blocks _ _ daysBeforeYear_succ ha.year_pos hb.year_pos
    ha.dayOfYear_lt hb.dayOfYear_lt]
  exact or_congr_right (and_congr_right (dayOfYear_lt_or_iff ha hb))

theorem daysBeforeYear_cycles (eras : Nat) {centuries fours : Nat} (hc : centuries ≤ 3)
    (hf : fours ≤ 24) (hy : year ≤ 3) : daysBeforeYear (400 * eras + 100 * centuries + 4 * fours + year + 1) =
      146097 * eras + 36524 * centuries + 1461 * fours + 365 * year := by
  have h4 : (400 * eras + 100 * centuries + 4 * fours + year) / 4 =
      100 * eras + 25 * centuries + fours := by omega
  have h100 : (400 * eras + 100 * centuries + 4 * fours + year) / 100 =
      4 * eras + centuries := by omega
  have h400 : (400 * eras + 100 * centuries + 4 * fours + year) / 400 = eras := by omega
  rw [daysBeforeYear, Nat.add_sub_cancel, h4, h100, h400]
  omega

theorem exists_cycles (n : Nat) : ∃ eras centuries fours year rest,
    centuries ≤ 3 ∧ fours ≤ 24 ∧ year ≤ 3 ∧
    yearOf n = 400 * eras + 100 * centuries + 4 * fours + year + 1 ∧
    n = 146097 * eras + 36524 * centuries + 1461 * fours + 365 * year + rest ∧
    rest < yearLength (yearOf n) := by
  have hsum := Nat.div_add_mod n 146097
  have hlt := Nat.mod_lt n (by decide : 146097 > 0)
  simp only [yearOf]
  generalize n / 146097 = eras, n % 146097 = r at *
  obtain ⟨centuries, hcenturies⟩ : ∃ c, c = min 3 (r / 36524) := ⟨_, rfl⟩
  rw [← hcenturies]
  obtain ⟨s, hs⟩ : ∃ s, r = 36524 * centuries + s := ⟨r - 36524 * centuries, by omega⟩
  have hs' : r - centuries * 36524 = s := by omega
  rw [hs']
  have hslt : s < 36524 ∨ centuries = 3 ∧ s = 36524 := by omega
  clear hs'
  obtain ⟨years, hyears⟩ : ∃ y, y = min 3 (s % 1461 / 365) := ⟨_, rfl⟩
  rw [← hyears]
  refine ⟨eras, centuries, s / 1461, years, s % 1461 - 365 * years, by omega, by omega, by omega,
    rfl, by omega, ?_⟩
  -- Only the last year of four is longer, and the last day of the four belongs to it.
  by_cases hlast : s % 1461 = 1460
  · have hleap : isLeap (400 * eras + 100 * centuries + 4 * (s / 1461) + years + 1) = true := by
      rw [isLeap_iff]
      omega
    rw [yearLength, if_pos hleap]
    omega
  · have hlength := yearLength_ge (400 * eras + 100 * centuries + 4 * (s / 1461) + years + 1)
    omega

theorem yearOf_bounds (n : Nat) : 0 < yearOf n ∧ daysBeforeYear (yearOf n) ≤ n ∧
    n < daysBeforeYear (yearOf n + 1) := by
  obtain ⟨eras, centuries, fours, year, rest, hc, hf, hy, hyear, hn, hrest⟩ := exists_cycles n
  have hfirst := daysBeforeYear_cycles eras hc hf hy
  rw [← hyear] at hfirst
  have hpos : 0 < yearOf n := by omega
  rw [daysBeforeYear_succ _ hpos]
  omega

structure StandsOn (d : Date) (year n : Nat) : Prop where
  year_eq : d.year = year
  month_pos : 0 < d.month
  month_le : d.month ≤ 12
  day_pos : 0 < d.day
  day_le : d.day ≤ daysInMonth d.year d.month
  dayOfYear_eq : d.dayOfYear = n

theorem standsOn_ofDayOfYear (hmonth : 0 < month) (hleft : month + left = 12)
    (hday : daysBeforeMonth year month + day < yearLength year) :
    (ofDayOfYear year left month day).StandsOn year (daysBeforeMonth year month + day) := by
  induction left generalizing month day with
  | zero =>
    obtain rfl : month = 12 := by omega
    rw [← daysBeforeMonth_end, daysBeforeMonth_succ year 12 (by decide)] at hday
    exact ⟨rfl, hmonth, Nat.le_refl 12, Nat.succ_pos day, Nat.lt_of_add_lt_add_left hday, rfl⟩
  | succ left ih =>
    rw [ofDayOfYear]
    split
    · next h =>
      have hle : month ≤ 12 := by omega
      exact ⟨rfl, hmonth, hle, Nat.succ_pos day, h, rfl⟩
    · next h =>
      have hnext : daysBeforeMonth year (month + 1) + (day - daysInMonth year month) =
          daysBeforeMonth year month + day := by
        rw [daysBeforeMonth_succ year month hmonth]
        omega
      rw [← hnext] at hday ⊢
      exact ih (Nat.succ_pos month) (by omega) hday

def daysEnd : Nat := 3652059

theorem valid_ofDays (h : n < daysEnd) : (ofDays n).Valid ∧ (ofDays n).days = n := by
  obtain ⟨hpos, hfirst, hend⟩ := yearOf_bounds n
  rw [daysBeforeYear_succ _ hpos] at hend
  have hyear : yearOf n ≤ 9999 := by
    by_contra hlater
    have hlast := le_of_blocks daysBeforeYear_succ (by decide : 0 < 9999) (Nat.lt_of_not_le hlater)
    have hdays : daysBeforeYear 9999 + yearLength 9999 = daysEnd := by decide
    omega
  have hday : n - daysBeforeYear (yearOf n) < yearLength (yearOf n) := by omega
  have hstart : daysBeforeMonth (yearOf n) 1 = 0 := rfl
  have hstands := standsOn_ofDayOfYear (by decide : 0 < 1) (rfl : 1 + 11 = 12)
    (by rwa [hstart, Nat.zero_add])
  rw [hstart, Nat.zero_add] at hstands
  have hdate : ofDays n = ofDayOfYear (yearOf n) 11 1 (n - daysBeforeYear (yearOf n)) := rfl
  rw [← hdate] at hstands
  refine ⟨⟨?_, ?_, hstands.month_pos, hstands.month_le, hstands.day_pos, hstands.day_le⟩, ?_⟩
  · rwa [hstands.year_eq]
  · rwa [hstands.year_eq]
  · rw [days_eq, hstands.dayOfYear_eq, hstands.year_eq]
    omega

end Date

end LeakScan
