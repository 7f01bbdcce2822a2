import LeakScan.Proofs.Time.Calendar
import Mathlib.Algebra.Group.Nat.Defs

namespace LeakScan

variable {width m n : Nat} {xs ys s t : List Char} {c : Char}

theorem isDigit_of_mem_padded (h : c ∈ padded width n) : c.isDigit = true := by
  rcases List.mem_append.1 h with hzero | hdigit
  · rw [List.eq_of_mem_replicate hzero]
    rfl
  · exact Nat.isDigit_of_mem_toDigits (by decide) (by decide) hdigit

theorem length_padded (hw : 0 < width) (h : n < 10 ^ width) : (padded width n).length = width := by
  have hle := (Nat.length_toDigits_le_iff (b := 10) (by decide) hw).2 h
  rw [padded, List.length_append, List.length_replicate]
  omega

theorem ofDigitChars_padded (width n : Nat) : Nat.ofDigitChars 10 (padded width n) 0 = n := by
  simp [padded, Nat.ofDigitChars_append, Nat.ofDigitChars_replicate_zero]

theorem lt_or_digits_iff (hlen : xs.length = ys.length) (hx : ∀ c ∈ xs, c.isDigit = true)
    (hy : ∀ c ∈ ys, c.isDigit = true) : (m < n ∨ m = n ∧ xs ++ s < ys ++ t) ↔
      Nat.ofDigitChars 10 xs m < Nat.ofDigitChars 10 ys n ∨
        Nat.ofDigitChars 10 xs m = Nat.ofDigitChars 10 ys n ∧ s < t := by
  induction xs generalizing ys m n with
  | nil =>
    obtain rfl : ys = [] := List.length_eq_zero_iff.1 hlen.symm
    rfl
  | cons x xs ih =>
    cases ys with
    | nil => simp at hlen
    | cons y ys =>
      rw [List.forall_mem_cons, Char.isDigit_iff_toNat] at hx hy
      obtain ⟨⟨hxlow, hxhigh⟩, hx⟩ := hx
      obtain ⟨⟨hylow, hyhigh⟩, hy⟩ := hy
      have hnine : '9'.toNat = '0'.toNat + 9 := rfl
      have hlt : x < y ↔ x.toNat - '0'.toNat < y.toNat - '0'.toNat := by
        change x.toNat < y.toNat ↔ _
        omega
      have heq : x = y ↔ x.toNat - '0'.toNat = y.toNat - '0'.toNat := by
        rw [← Char.toNat_inj]
        omega
      rw [Nat.ofDigitChars_cons, Nat.ofDigitChars_cons, ← ih (Nat.succ.inj hlen) hx hy,
        Nat.mul_comm 10, Nat.mul_comm 10, lt_or_iff_of_places (by omega) (by omega),
        List.cons_append, List.cons_append, List.cons_lt_cons_iff, hlt, heq]

theorem padded_append_lt_iff (hw : 0 < width) (hm : m < 10 ^ width) (hn : n < 10 ^ width) :
    padded width m ++ s < padded width n ++ t ↔ m < n ∨ m = n ∧ s < t := by
  have h := lt_or_digits_iff (m := 0) (n := 0) (s := s) (t := t)
    ((length_padded hw hm).trans (length_padded hw hn).symm)
    (fun _ => isDigit_of_mem_padded) fun _ => isDigit_of_mem_padded
  rw [ofDigitChars_padded, ofDigitChars_padded] at h
  simpa using h

namespace Moment

variable {t : Moment}

structure Valid (t : Moment) : Prop where
  date : t.date.Valid
  hour : t.hour < 24
  minute : t.minute < 60
  second : t.second < 60
  micro : t.micro < 1000000
  offset : ∀ s, t.offset = some s → s.natAbs < 86400

/-- What is written of the time on the moment's own clock. -/
def localChars (t : Moment) : List Char :=
  t.date.textChars ++ 'T' :: t.clockChars ++ '.' :: padded 3 (t.micro / 1000)

theorem localChars_append (t : Moment) (xs : List Char) : t.localChars ++ xs =
    padded 4 t.date.year ++ '-' :: (padded 2 t.date.month ++ '-' :: (padded 2 t.date.day ++
      'T' :: (padded 2 t.hour ++ ':' :: (padded 2 t.minute ++ ':' :: (padded 2 t.second ++
        '.' :: (padded 3 (t.micro / 1000) ++ xs)))))) := by
  simp [localChars, Date.textChars, clockChars]

structure Fits (t : Moment) : Prop where
  year : t.date.year < 10 ^ 4
  month : t.date.month < 10 ^ 2
  day : t.date.day < 10 ^ 2
  hour : t.hour < 10 ^ 2
  minute : t.minute < 10 ^ 2
  second : t.second < 10 ^ 2
  millis : t.micro / 1000 < 10 ^ 3

theorem Valid.fits (h : t.Valid) : t.Fits where
  year := Nat.lt_succ_of_le h.date.year_le
  month := h.date.month_le.trans_lt (by decide)
  day := (h.date.day_le.trans (daysInMonth_le _ _)).trans_lt (by decide)
  hour := h.hour.trans (by decide)
  minute := h.minute.trans (by decide)
  second := h.second.trans (by decide)
  millis := Nat.div_lt_of_lt_mul h.micro

theorem writeZulu_append (h : '+' ∉ xs) (ys : List Char) :
    writeZulu (xs ++ ys) = xs ++ writeZulu ys := by
  induction xs with
  | nil => rfl
  | cons c xs ih =>
    rw [List.mem_cons, not_or] at h
    rw [List.cons_append, writeZulu, ih h.2, List.cons_append]
    exact fun _ hc => absurd hc.symm h.1

theorem plus_notMem_padded : '+' ∉ padded width n := fun h => by
  simpa using isDigit_of_mem_padded h

theorem toList_stamp (t : Moment) :
    t.stamp.toList = t.localChars ++ writeZulu (offsetChars t.offset) := by
  have hplus : '+' ∉ t.localChars := by
    simp [localChars, clockChars, Date.textChars, plus_notMem_padded]
  rw [stamp, String.toList_ofList, ← writeZulu_append hplus]
  simp [millisChars, localChars]

end Moment

end LeakScan
