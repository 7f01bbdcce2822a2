import LeakScan.Proofs.Time.Printed
import LeakScan.Proofs.Report.Rules
import LeakScan.Report.Encode
import Mathlib.Data.String.Basic

namespace LeakScan

variable {xs ys : List Char} {us : Int}

namespace Moment

variable {a b t : Moment}

structure IsUtc (t : Moment) : Prop extends Valid t where
  utc : t.offset = some 0

def localMillis (t : Moment) : Nat :=
  (((t.date.days * 24 + t.hour) * 60 + t.minute) * 60 + t.second) * 1000 + t.micro / 1000

theorem localMicros_div (t : Moment) : t.localMicros / 1000 = t.localMillis := by
  rw [localMicros, localMillis]
  omega

theorem Valid.millis_lt (h : t.Valid) : t.micro / 1000 < 1000 := Nat.div_lt_of_lt_mul h.micro

/-- The fields stand in the order of what they count: days by their dates, and what is left of a day
by hours, minutes, seconds and milliseconds. -/
theorem localChars_append_lt_iff (ha : a.Valid) (hb : b.Valid) :
    a.localChars ++ xs < b.localChars ++ ys ↔
      a.localMillis < b.localMillis ∨ a.localMillis = b.localMillis ∧ xs < ys := by
  have hfa := ha.fits
  have hfb := hb.fits
  simp only [localChars_append, List.cons_lt_cons_iff, lt_self_iff_false, false_or, true_and,
    padded_append_lt_iff (by decide) hfa.year hfb.year,
    padded_append_lt_iff (by decide) hfa.month hfb.month,
    padded_append_lt_iff (by decide) hfa.day hfb.day,
    padded_append_lt_iff (by decide) hfa.hour hfb.hour,
    padded_append_lt_iff (by decide) hfa.minute hfb.minute,
    padded_append_lt_iff (by decide) hfa.second hfb.second,
    padded_append_lt_iff (by decide) hfa.millis hfb.millis]
  rw [localMillis, localMillis, lt_or_iff_of_places ha.millis_lt hb.millis_lt,
    lt_or_iff_of_places ha.second hb.second, lt_or_iff_of_places ha.minute hb.minute,
    lt_or_iff_of_places ha.hour hb.hour, Date.days_lt_or_iff ha.date hb.date]

theorem stamp_lt_iff (ha : a.IsUtc) (hb : b.IsUtc) :
    a.stamp < b.stamp ↔ a.localMillis < b.localMillis := by
  rw [String.lt_iff_toList_lt, toList_stamp, toList_stamp, ha.utc, hb.utc,
    localChars_append_lt_iff ha.toValid hb.toValid, or_iff_left]
  exact fun h => lt_irrefl _ h.2

theorem stamp_le_iff (ha : a.IsUtc) (hb : b.IsUtc) :
    a.stamp ≤ b.stamp ↔ a.localMillis ≤ b.localMillis := by
  rw [← not_lt, stamp_lt_iff hb ha, not_lt]

theorem stamp_eq_iff (ha : a.IsUtc) (hb : b.IsUtc) :
    a.stamp = b.stamp ↔ a.localMillis = b.localMillis := by
  rw [le_antisymm_iff, stamp_le_iff ha hb, stamp_le_iff hb ha, le_antisymm_iff]

/-- Microseconds from the beginning of year 1 to the epoch. -/
def epochMicros : Int := epochDays * 86400000000

/-- The instants that have a date of the years 1 to 9999. -/
def Dated (us : Int) : Prop := 0 ≤ us + epochMicros ∧ us + epochMicros < Date.daysEnd * 86400000000

theorem isUtc_ofEpochMicros (h : Dated us) :
    (ofEpochMicros us).IsUtc ∧ (ofEpochMicros us).localMicros = us + epochMicros := by
  obtain ⟨n, hn⟩ := Int.eq_ofNat_of_zero_le h.1
  have htotal : (us + epochDays * 86400000000).toNat = n := by
    rw [epochMicros] at hn
    omega
  have hday : n / 86400000000 < Date.daysEnd := by
    have hend := h.2
    omega
  obtain ⟨hvalid, hdays⟩ := Date.valid_ofDays hday
  have htime := Nat.mod_lt n (by decide : 86400000000 > 0)
  rw [hn, localMicros]
  simp only [ofEpochMicros, htotal, hdays]
  refine ⟨⟨⟨hvalid, ?_, ?_, ?_, ?_, ?_⟩, rfl⟩, ?_⟩
  · exact Nat.div_lt_of_lt_mul htime
  · exact Nat.mod_lt _ (by decide)
  · exact Nat.mod_lt _ (by decide)
  · exact Nat.mod_lt _ (by decide)
  · intro s hs
    rw [← Option.some.inj hs]
    decide
  · omega

end Moment

theorem Report.times_toJson (r : Report) :
    r.toJson.part? [.member "summary", .member "scan_started_at"] = some (.str r.startedAt.stamp) ∧
    r.toJson.part? [.member "summary", .member "scan_completed_at"] =
      some (.str r.completedAt.stamp) := by
  cases h : r.target <;>
    simp [Report.toJson, Report.summaryJson, Json.part?, Json.member?, Target.key, h]

/-- Moments of universal time are printed in their order, and alike just within one millisecond; the
instants of a clock are such moments as long as they have a date; and the end of a report is printed
as no earlier than its beginning, if it is not. -/
theorem stamps_in_order :
    (∀ a b : Moment, a.IsUtc → b.IsUtc → a.localMicros ≤ b.localMicros →
      a.stamp ≤ b.stamp ∧ (a.stamp = b.stamp ↔ a.localMicros / 1000 = b.localMicros / 1000)) ∧
    (∀ us, Moment.Dated us → (Moment.ofEpochMicros us).IsUtc ∧
      (Moment.ofEpochMicros us).localMicros = us + Moment.epochMicros) ∧
    ∀ r : Report, r.startedAt.IsUtc → r.completedAt.IsUtc →
      r.startedAt.localMicros ≤ r.completedAt.localMicros → ∃ started completed : String,
        r.toJson.part? [.member "summary", .member "scan_started_at"] = some (.str started) ∧
        r.toJson.part? [.member "summary", .member "scan_completed_at"] = some (.str completed) ∧
        started ≤ completed := by
  have hle {a b : Moment} (ha : a.IsUtc) (hb : b.IsUtc) (h : a.localMicros ≤ b.localMicros) :
      a.stamp ≤ b.stamp := by
    rw [Moment.stamp_le_iff ha hb, ← Int.ofNat_le, ← Moment.localMicros_div,
      ← Moment.localMicros_div]
    exact Int.ediv_le_ediv (by decide) h
  refine ⟨fun a b ha hb h => ⟨hle ha hb h, ?_⟩, fun _ => Moment.isUtc_ofEpochMicros, ?_⟩
  · rw [Moment.stamp_eq_iff ha hb, Moment.localMicros_div, Moment.localMicros_div, Int.natCast_inj]
  · intro r hstart hend h
    exact ⟨_, _, r.times_toJson.1, r.times_toJson.2, hle hstart hend h⟩

/-- The last moment of a February without a leap day, as 1900 is divided by 100 and not by 400. -/
def lastOfFebruary : Moment := ⟨⟨1900, 2, 28⟩, 23, 59, 59, 999999, some 0⟩

def firstOfMarch : Moment := ⟨⟨1900, 3, 1⟩, 0, 0, 0, 0, some 0⟩

def intoMarch : Report where
  target := .directory "/srv/app"
  filesScanned := 1
  startedAt := lastOfFebruary
  completedAt := firstOfMarch
  keys := []
  sensitiveFiles := []
  codeIssues := []
  errors := []

theorem stamps_in_order_into_march :
    lastOfFebruary.IsUtc ∧ firstOfMarch.IsUtc ∧
    firstOfMarch.localMicros = lastOfFebruary.localMicros + 1 ∧
    lastOfFebruary.stamp = "1900-02-28T23:59:59.999Z" ∧
    firstOfMarch.stamp = "1900-03-01T00:00:00.000Z" ∧
    lastOfFebruary.stamp ≤ firstOfMarch.stamp ∧ lastOfFebruary.stamp ≠ firstOfMarch.stamp ∧
    Moment.Dated (-1) ∧ (Moment.ofEpochMicros (-1)).IsUtc ∧
    ∃ started completed : String,
      intoMarch.toJson.part? [.member "summary", .member "scan_started_at"] =
        some (.str started) ∧
      intoMarch.toJson.part? [.member "summary", .member "scan_completed_at"] =
        some (.str completed) ∧ started ≤ completed := by
  have hlast : lastOfFebruary.IsUtc := by
    refine ⟨⟨?_, by decide, by decide, by decide, by decide, by simp [lastOfFebruary]⟩, rfl⟩
    constructor <;> decide
  have hfirst : firstOfMarch.IsUtc := by
    refine ⟨⟨?_, by decide, by decide, by decide, by decide, by simp [firstOfMarch]⟩, rfl⟩
    constructor <;> decide
  have hnext : firstOfMarch.localMicros = lastOfFebruary.localMicros + 1 := by decide
  have hle : lastOfFebruary.localMicros ≤ firstOfMarch.localMicros := by omega
  have hmillis : ¬lastOfFebruary.localMicros / 1000 = firstOfMarch.localMicros / 1000 := by decide
  have hdated : Moment.Dated (-1) := ⟨by decide, by decide⟩
  obtain ⟨hmoments, hinstants, hreports⟩ := stamps_in_order
  obtain ⟨hstamps, halike⟩ := hmoments _ _ hlast hfirst hle
  exact ⟨hlast, hfirst, hnext, by decide, by decide, hstamps, mt halike.1 hmillis, hdated,
    (hinstants _ hdated).1, hreports intoMarch hlast hfirst hle⟩

end LeakScan
