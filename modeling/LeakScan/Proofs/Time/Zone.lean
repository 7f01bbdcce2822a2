import LeakScan.Proofs.Time.Printed

namespace LeakScan

namespace Moment

variable {t : Moment} {offset : Option Int} {width m n : Nat} {s r zone : List Char}

def number? (width : Nat) (s : List Char) : Option (Nat × List Char) :=
  let digits := s.take width
  if digits.length = width ∧ digits.all Char.isDigit then
    some (Nat.ofDigitChars 10 digits 0, s.drop width)
  else none

def behind? (mark : Char) : List Char → Option (List Char)
  | c :: s => if c = mark then some s else none
  | [] => none

def seconds? : List Char → Option Nat
  | [] => some 0
  | s => do
    let s ← behind? ':' s
    let (seconds, s) ← number? 2 s
    if 0 < seconds ∧ seconds < 60 ∧ s = [] then some seconds else none

def span? (s : List Char) : Option Nat := do
  let (hours, s) ← number? 2 s
  let s ← behind? ':' s
  let (minutes, s) ← number? 2 s
  let seconds ← seconds? s
  if hours < 24 ∧ minutes < 60 then some ((hours * 60 + minutes) * 60 + seconds) else none

def zone? : List Char → Option (Option Int)
  | [] => some none
  | ['Z'] => some (some 0)
  | '+' :: s => (span? s).map fun n : Nat => some n
  | '-' :: s => (span? s).map fun n : Nat => some (-n)
  | _ => none

/-- A date and time of day with milliseconds, and the zone behind them. -/
def read? (s : List Char) : Option Moment := do
  let (year, s) ← number? 4 s
  let s ← behind? '-' s
  let (month, s) ← number? 2 s
  let s ← behind? '-' s
  let (day, s) ← number? 2 s
  let s ← behind? 'T' s
  let (hour, s) ← number? 2 s
  let s ← behind? ':' s
  let (minute, s) ← number? 2 s
  let s ← behind? ':' s
  let (second, s) ← number? 2 s
  let s ← behind? '.' s
  let (millis, s) ← number? 3 s
  let offset ← zone? s
  return ⟨⟨year, month, day⟩, hour, minute, second, millis * 1000, offset⟩

theorem number?_padded (hw : 0 < width) (h : n < 10 ^ width) (s : List Char) :
    number? width (padded width n ++ s) = some (n, s) := by
  have hlength := length_padded hw h
  have htake : (padded width n ++ s).take width = padded width n := List.take_left' hlength
  have hdrop : (padded width n ++ s).drop width = s := List.drop_left' hlength
  have hdigits : (padded width n).all Char.isDigit = true :=
    List.all_eq_true.2 fun _ => isDigit_of_mem_padded
  simp only [number?, htake, hdrop]
  rw [if_pos ⟨hlength, hdigits⟩, ofDigitChars_padded]

theorem padded_append_inj (hw : 0 < width) (hm : m < 10 ^ width) (hn : n < 10 ^ width)
    (h : padded width m ++ s = padded width n ++ r) : m = n ∧ s = r := by
  have hread := congrArg (number? width) h
  rw [number?_padded hw hm, number?_padded hw hn] at hread
  simpa using hread

theorem behind?_cons (mark : Char) (s : List Char) : behind? mark (mark :: s) = some s :=
  if_pos rfl

theorem read?_localChars (ht : t.Valid) (s : List Char) : read? (t.localChars ++ s) =
    (zone? s).map fun offset => { t with micro := t.micro / 1000 * 1000, offset := offset } := by
  have hfits := ht.fits
  simp only [read?, localChars_append, Option.bind_eq_bind, Option.bind_some, behind?_cons,
    number?_padded (by decide) hfits.year, number?_padded (by decide) hfits.month,
    number?_padded (by decide) hfits.day, number?_padded (by decide) hfits.hour,
    number?_padded (by decide) hfits.minute, number?_padded (by decide) hfits.second,
    number?_padded (by decide) hfits.millis]
  cases zone? s <;> rfl

def WritesSpan (n : Nat) (text : List Char) : Prop := ∃ hours minutes seconds,
  hours < 24 ∧ minutes < 60 ∧ seconds < 60 ∧ n = (hours * 60 + minutes) * 60 + seconds ∧
  text = padded 2 hours ++ ':' :: (padded 2 minutes ++
    if seconds = 0 then [] else ':' :: padded 2 seconds)

inductive WritesZone : Option Int → List Char → Prop
  | naive : WritesZone none []
  | utc : WritesZone (some 0) ['Z']
  | ahead {n : Nat} {text : List Char} (hpos : 0 < n) (h : WritesSpan n text) :
    WritesZone (some n) ('+' :: text)
  | behind {n : Nat} {text : List Char} (hpos : 0 < n) (h : WritesSpan n text) :
    WritesZone (some (-n)) ('-' :: text)

theorem seconds?_eq_some (h : n < 60) :
    seconds? (if n = 0 then [] else ':' :: padded 2 n) = some n := by
  split
  · next hzero => rw [hzero, seconds?]
  · next hn =>
    have hread := number?_padded (by decide) (h.trans (by decide : 60 < 10 ^ 2)) []
    rw [List.append_nil] at hread
    simp [seconds?, behind?_cons, hread, h, Nat.pos_of_ne_zero hn]

theorem span?_eq_some (h : WritesSpan n s) : span? s = some n := by
  obtain ⟨hours, minutes, seconds, hhours, hminutes, hseconds, rfl, rfl⟩ := h
  simp [span?, behind?_cons,
    number?_padded (by decide) (hhours.trans (by decide : 24 < 10 ^ 2)),
    number?_padded (by decide) (hminutes.trans (by decide : 60 < 10 ^ 2)),
    seconds?_eq_some hseconds, hhours, hminutes]

theorem zone?_eq_some (h : WritesZone offset zone) : zone? zone = some offset := by
  cases h with
  | naive => rfl
  | utc => rfl
  | ahead hpos h => rw [zone?, span?_eq_some h, Option.map_some]
  | behind hpos h => rw [zone?, span?_eq_some h, Option.map_some]

def spanChars (n : Nat) : List Char :=
  padded 2 (n / 3600) ++ ':' :: (padded 2 (n / 60 % 60) ++
    if n % 60 = 0 then [] else ':' :: padded 2 (n % 60))

theorem offsetChars_some (s : Int) :
    offsetChars (some s) = (if s < 0 then '-' else '+') :: spanChars s.natAbs := by
  simp [offsetChars, spanChars]

theorem writesSpan_spanChars (h : n < 86400) : WritesSpan n (spanChars n) :=
  ⟨n / 3600, n / 60 % 60, n % 60, by omega, by omega, by omega, by omega, rfl⟩

theorem writeZulu_eq_self (h : '+' ∉ s) : writeZulu s = s := by
  simpa [writeZulu] using writeZulu_append h []

theorem plus_notMem_spanChars : '+' ∉ spanChars n := by
  unfold spanChars
  split <;> simp [plus_notMem_padded]

theorem spanChars_of_seconds (hpos : 0 < n) (h : n < 60) :
    spanChars n = '0' :: '0' :: ':' :: '0' :: '0' :: ':' :: padded 2 n := by
  have hhours : n / 3600 = 0 := by omega
  have hminutes : n / 60 % 60 = 0 := by omega
  have hseconds : n % 60 = n := by omega
  rw [spanChars, hhours, hminutes, hseconds, if_neg (by omega)]
  rfl

theorem lt_of_spanChars (hn : n < 86400)
    (h : spanChars n = '0' :: '0' :: ':' :: '0' :: '0' :: r) : n < 60 := by
  have hzero : '0' :: '0' :: ':' :: '0' :: '0' :: r = padded 2 0 ++ ':' :: (padded 2 0 ++ r) := rfl
  rw [spanChars, hzero] at h
  obtain ⟨hhours, hrest⟩ := padded_append_inj (by decide) (by omega) (by decide) h
  obtain ⟨hminutes, -⟩ :=
    padded_append_inj (by decide) (by omega) (by decide) (List.cons.inj hrest).2
  omega

/-- Some seconds ahead of universal time, and no minute. -/
def SecondsAhead (offset : Option Int) (n : Nat) : Prop := offset = some (n : Int) ∧ 0 < n ∧ n < 60

theorem writeZulu_secondsAhead (h : SecondsAhead offset n) :
    writeZulu (offsetChars offset) = 'Z' :: ':' :: padded 2 n := by
  obtain ⟨rfl, hpos, hlt⟩ := h
  rw [offsetChars_some, if_neg (by omega), Int.natAbs_natCast, spanChars_of_seconds hpos hlt,
    writeZulu, writeZulu_eq_self (by simp [plus_notMem_padded])]

theorem writesZone_writeZulu (hvalid : ∀ s ∈ offset, s.natAbs < 86400)
    (h : ∀ n, ¬SecondsAhead offset n) : WritesZone offset (writeZulu (offsetChars offset)) := by
  cases offset with
  | none => exact .naive
  | some s =>
    have hspan := writesSpan_spanChars (hvalid s rfl)
    rw [offsetChars_some]
    rcases Int.lt_trichotomy s 0 with hs | rfl | hs
    · have hbehind := WritesZone.behind (by omega) hspan
      have heq : -(s.natAbs : Int) = s := by omega
      rw [if_pos hs, writeZulu_eq_self (by simp [plus_notMem_spanChars])]
      rwa [heq] at hbehind
    · exact .utc
    · have hahead := WritesZone.ahead (by omega) hspan
      have heq : (s.natAbs : Int) = s := by omega
      rw [if_neg (by omega), writeZulu, writeZulu_eq_self plus_notMem_spanChars]
      · rwa [heq] at hahead
      · intro r _ hr
        exact h s.natAbs ⟨congrArg some heq.symm, by omega, lt_of_spanChars (hvalid s rfl) hr⟩

def toMillis (t : Moment) : Moment := { t with micro := t.micro / 1000 * 1000 }

/-- The zone is printed behind the time on the clock in its form, and both are read back. -/
def KeepsZone (t : Moment) : Prop := ∃ zone, t.stamp = String.ofList (t.localChars ++ zone) ∧
  WritesZone t.offset zone ∧ read? t.stamp.toList = some t.toMillis

theorem stamp_secondsAhead (h : SecondsAhead t.offset n) :
    t.stamp.toList = t.localChars ++ 'Z' :: ':' :: padded 2 n := by
  rw [toList_stamp, writeZulu_secondsAhead h]

theorem read?_secondsAhead (ht : t.Valid) (h : SecondsAhead t.offset n) :
    read? t.stamp.toList = none := by
  rw [stamp_secondsAhead h, read?_localChars ht]
  rfl

theorem keepsZone_of_not_secondsAhead (ht : t.Valid) (h : ∀ n, ¬SecondsAhead t.offset n) :
    t.KeepsZone := by
  have hzone := writesZone_writeZulu ht.offset h
  refine ⟨_, String.toList_inj.1 ?_, hzone, ?_⟩
  · rw [toList_stamp, String.toList_ofList]
  · rw [toList_stamp, read?_localChars ht, zone?_eq_some hzone]
    rfl

/-- Just the distances of some seconds ahead and no minute are not kept: they are printed as none at
all with the seconds behind, and that is read back as nothing. -/
theorem zone_kept_iff (t : Moment) (ht : t.Valid) :
    (t.KeepsZone ↔ ∀ n, ¬SecondsAhead t.offset n) ∧ ∀ n, SecondsAhead t.offset n →
      t.stamp = String.ofList (t.localChars ++ 'Z' :: ':' :: padded 2 n) ∧
      read? t.stamp.toList = none := by
  refine ⟨⟨?_, keepsZone_of_not_secondsAhead ht⟩, fun n h => ⟨?_, read?_secondsAhead ht h⟩⟩
  · rintro ⟨_, _, _, hread⟩ n h
    rw [read?_secondsAhead ht h] at hread
    cases hread
  · rw [← stamp_secondsAhead h, String.ofList_toList]

def monrovia : Moment := ⟨⟨1971, 12, 31⟩, 23, 15, 30, 250999, some (-2670)⟩

def halfMinuteAhead : Moment := ⟨⟨2024, 1, 2⟩, 3, 4, 5, 678901, some 30⟩

theorem zone_kept_iff_monrovia :
    (monrovia.Valid ∧ monrovia.KeepsZone ∧
      monrovia.stamp = "1971-12-31T23:15:30.250-00:44:30" ∧
      read? monrovia.stamp.toList = some { monrovia with micro := 250000 }) ∧
    halfMinuteAhead.Valid ∧ SecondsAhead halfMinuteAhead.offset 30 ∧
      read? halfMinuteAhead.stamp.toList = none := by
  have hvalid : monrovia.Valid := by
    refine ⟨?_, by decide, by decide, by decide, by decide, by simp [monrovia]⟩
    constructor <;> decide
  have hkept : monrovia.KeepsZone := by
    rw [(zone_kept_iff monrovia hvalid).1]
    rintro n ⟨h, -⟩
    have := Option.some.inj h
    omega
  have hhalf : halfMinuteAhead.Valid := by
    refine ⟨?_, by decide, by decide, by decide, by decide, by simp [halfMinuteAhead]⟩
    constructor <;> decide
  have hseconds : SecondsAhead halfMinuteAhead.offset 30 := ⟨rfl, by decide, by decide⟩
  exact ⟨⟨hvalid, hkept, by decide, by decide⟩, hhalf, hseconds,
    ((zone_kept_iff halfMinuteAhead hhalf).2 30 hseconds).2⟩

theorem half_minute_lost : halfMinuteAhead.Valid ∧
    halfMinuteAhead.stamp = "2024-01-02T03:04:05.678Z:30" ∧ ¬halfMinuteAhead.KeepsZone := by
  refine ⟨⟨?_, by decide, by decide, by decide, by decide, by simp [halfMinuteAhead]⟩,
    by decide, ?_⟩
  · constructor <;> decide
  · rintro ⟨_, _, _, hread⟩
    have hnothing : read? halfMinuteAhead.stamp.toList = none := by decide
    rw [hnothing] at hread
    cases hread

end Moment

end LeakScan
