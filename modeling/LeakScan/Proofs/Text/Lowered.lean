import LeakScan.Proofs.Text.LetterCase
import Mathlib.Data.List.Basic

namespace LeakScan.Text

namespace CaseRun

def lastPartner (r : CaseRun) : Nat := r.partner + (r.last - r.first)

/-- The partners of one run are not covered by another one: they lie apart from it, or each holds
every second code point and they alternate. -/
def Avoids (r s : CaseRun) : Bool :=
  Nat.blt r.lastPartner s.first || Nat.blt s.last r.partner ||
    (s.step == 2 && (r.step == 2 || r.first == r.last) && (r.partner + s.first) % 2 == 1)

/-- The partners are characters, and none of them is a slash or the dotted capital. -/
def IsPlain (r : CaseRun) : Bool :=
  Nat.blt 0x2F r.partner && (Nat.blt r.lastPartner 0x130 || Nat.blt 0x130 r.partner) &&
    (Nat.blt r.lastPartner 0xD800 || (Nat.blt 0xDFFF r.partner && Nat.blt r.lastPartner 0x110000))

variable {r s : CaseRun} {n : Nat}

theorem covers_iff :
    r.covers n = true ↔ r.first ≤ n ∧ n ≤ r.last ∧ (n - r.first) % r.step = 0 := by
  simp [covers, and_assoc]

theorem covers_partner (havoids : r.Avoids s = true) (hn : r.covers n = true) :
    s.covers (r.partner + (n - r.first)) = false := by
  obtain ⟨hfirst, hlast, hstep⟩ := covers_iff.1 hn
  simp only [Avoids, lastPartner, Bool.or_eq_true, Bool.and_eq_true, Nat.blt_eq, beq_iff_eq]
    at havoids
  refine Bool.eq_false_iff.2 fun hs => ?_
  obtain ⟨hlow, hhigh, heven⟩ := covers_iff.1 hs
  rcases havoids with (hbefore | hbehind) | ⟨⟨hs2, hr2 | hone⟩, hodd⟩
  · omega
  · omega
  · rw [hs2] at heven
    rw [hr2] at hstep
    omega
  · rw [hs2] at heven
    omega

end CaseRun

theorem caseRuns_avoid : ∀ r ∈ caseRuns, ∀ s ∈ caseRuns, r.Avoids s = true := by
  have hall : (caseRuns.all fun r => caseRuns.all fun s => r.Avoids s) = true := by decide +kernel
  exact fun r hr s hs => List.all_eq_true.1 (List.all_eq_true.1 hall r hr) s hs

theorem caseRuns_plain : ∀ r ∈ caseRuns, r.IsPlain = true := by decide +kernel

def asciiRun : CaseRun := ⟨0x41, 0x5A, 1, 0x61⟩

theorem asciiRun_mem : asciiRun ∈ caseRuns := List.mem_cons_self

theorem caseRuns_ascii : ∀ r ∈ caseRuns, r = asciiRun ∨ 0x80 ≤ r.first := by decide +kernel

theorem asciiRun_of_isUpper {c : Char} (h : c.isUpper = true) :
    asciiRun.covers c.toNat = true ∧
      c.toLower = Char.ofNat (asciiRun.partner + (c.toNat - asciiRun.first)) := by
  have hall : (capitals.all fun c => asciiRun.covers c.toNat &&
      c.toLower == Char.ofNat (asciiRun.partner + (c.toNat - asciiRun.first))) = true := by decide
  have hc := List.all_eq_true.1 hall c (mem_capitals h)
  rw [Bool.and_eq_true] at hc
  exact ⟨hc.1, eq_of_beq hc.2⟩

structure IsLowered (c : Char) : Prop where
  dotless : c ≠ '\u0130'
  uncovered : ∀ r ∈ caseRuns, r.covers c.toNat = false

variable {c : Char} {s : List Char}

theorem lowerChar_of_isLowered (h : IsLowered c) : lowerChar c = c := by
  unfold lowerChar
  split
  · have hcapital : ¬ c.isUpper = true := by
      intro hupper
      have hcovered := (asciiRun_of_isUpper hupper).1
      rw [h.uncovered asciiRun asciiRun_mem] at hcovered
      cases hcovered
    exact dif_neg (of_decide_eq_false (Bool.eq_false_iff.2 hcapital))
  · rw [List.find?_eq_none.2 fun r hr => by simp [h.uncovered r hr]]

theorem lowerChar_of_covered {r : CaseRun} (hr : r ∈ caseRuns) (hc : r.covers c.toNat = true) :
    ∃ r ∈ caseRuns, r.covers c.toNat = true ∧
      lowerChar c = Char.ofNat (r.partner + (c.toNat - r.first)) := by
  unfold lowerChar
  split
  · next hascii =>
    obtain rfl | hbeyond := caseRuns_ascii r hr
    · refine ⟨_, hr, hc, ?_⟩
      obtain ⟨hlow, hhigh, -⟩ := CaseRun.covers_iff.1 hc
      have hupper : c.isUpper = true := decide_eq_true ⟨hlow, hhigh⟩
      exact (asciiRun_of_isUpper hupper).2
    · have hlow := (CaseRun.covers_iff.1 hc).1
      omega
  · cases hfind : caseRuns.find? (·.covers c.toNat) with
    | none => exact absurd hc (List.find?_eq_none.1 hfind r hr)
    | some q =>
      have hq : q.covers c.toNat = true := by simpa using List.find?_some hfind
      exact ⟨q, List.mem_of_find?_eq_some hfind, hq, rfl⟩

theorem lowerChar_cases (hdot : c ≠ '\u0130') :
    (IsLowered c ∧ lowerChar c = c) ∨
      (IsLowered (lowerChar c) ∧ lowerChar c ≠ '/' ∧ c ≠ '/') := by
  by_cases huncovered : ∀ r ∈ caseRuns, r.covers c.toNat = false
  · exact .inl ⟨⟨hdot, huncovered⟩, lowerChar_of_isLowered ⟨hdot, huncovered⟩⟩
  · obtain ⟨r, hr, hc⟩ : ∃ r ∈ caseRuns, r.covers c.toNat = true := by simpa using huncovered
    obtain ⟨q, hq, hc, hlower⟩ := lowerChar_of_covered hr hc
    obtain ⟨hfirst, hlast, -⟩ := CaseRun.covers_iff.1 hc
    have hplain := caseRuns_plain q hq
    simp only [CaseRun.IsPlain, CaseRun.lastPartner, Bool.or_eq_true, Bool.and_eq_true,
      Nat.blt_eq] at hplain
    have hvalid : (q.partner + (c.toNat - q.first)).isValidChar := by
      unfold Nat.isValidChar
      omega
    have hcode : (lowerChar c).toNat = q.partner + (c.toNat - q.first) := by
      rw [hlower, Char.ofNat, dif_pos hvalid]
      rfl
    have hslash : ∀ q ∈ caseRuns, q.covers '/'.toNat = false := by decide +kernel
    refine .inr ⟨⟨fun heq => ?_, fun s hs => ?_⟩, fun heq => ?_, fun heq => ?_⟩
    · rw [heq] at hcode
      have : '\u0130'.toNat = 0x130 := rfl
      omega
    · rw [hcode]
      exact CaseRun.covers_partner (caseRuns_avoid q hq s hs) hc
    · rw [heq] at hcode
      have : '/'.toNat = 0x2F := rfl
      omega
    · rw [heq, hslash q hq] at hc
      cases hc

theorem isLowered_lowerChar (hdot : c ≠ '\u0130') : IsLowered (lowerChar c) := by
  rcases lowerChar_cases hdot with ⟨h, heq⟩ | ⟨h, -⟩
  · exact heq.symm ▸ h
  · exact h

theorem lowerChar_eq_slash (hdot : c ≠ '\u0130') : lowerChar c = '/' ↔ c = '/' := by
  rcases lowerChar_cases hdot with ⟨-, heq⟩ | ⟨-, hlower, hc⟩
  · rw [heq]
  · exact iff_of_false hlower hc

/-- The small forms that are in no run: those of the dotted capital, and the two of the sigma. -/
def specialForms : List Char := ['i', '\u0307', '\u03C2', '\u03C3']

theorem isLowered_special : ∀ d ∈ specialForms, IsLowered d := by
  have hdotless : (specialForms.all (· != '\u0130')) = true := by decide
  have huncovered : ∀ r ∈ caseRuns, (specialForms.all fun d => !r.covers d.toNat) = true := by
    decide +kernel
  intro d hd
  refine ⟨bne_iff_ne.1 (List.all_eq_true.1 hdotless d hd), fun r hr => ?_⟩
  simpa using List.all_eq_true.1 (huncovered r hr) d hd

theorem isLowered_lowered (before : List Char) (c : Char) (after : List Char) :
    ∀ d ∈ lowered before c after, IsLowered d := by
  unfold lowered
  split
  · exact fun d hd => isLowered_special d (List.mem_append_left ['\u03C2', '\u03C3'] hd)
  · next hdot =>
    split
    · intro d hd
      rw [List.mem_singleton.1 hd]
      split <;> exact isLowered_special _ (by simp [specialForms])
    · intro d hd
      rw [List.mem_singleton.1 hd]
      exact isLowered_lowerChar hdot

theorem isLowered_lowerAfter (before s : List Char) : ∀ d ∈ lowerAfter before s, IsLowered d := by
  induction s generalizing before with
  | nil => exact fun d hd => absurd hd List.not_mem_nil
  | cons c s ih =>
    rw [lowerAfter]
    exact List.forall_mem_append.2 ⟨isLowered_lowered before c s, ih (c :: before)⟩

theorem lowered_of_isLowered (h : IsLowered c) (before after : List Char) :
    lowered before c after = [c] := by
  have hsigma : c ≠ '\u03A3' := by
    rintro rfl
    have hcovered : ∃ r ∈ caseRuns, r.covers '\u03A3'.toNat = true := by decide +kernel
    obtain ⟨r, hr, hc⟩ := hcovered
    rw [h.uncovered r hr] at hc
    cases hc
  rw [lowered, if_neg h.dotless, if_neg hsigma, lowerChar_of_isLowered h]

theorem lowerAfter_of_isLowered (before : List Char) (hs : ∀ c ∈ s, IsLowered c) :
    lowerAfter before s = s := by
  induction s generalizing before with
  | nil => rfl
  | cons c s ih =>
    rw [List.forall_mem_cons] at hs
    rw [lowerAfter, lowered_of_isLowered hs.1, ih (c :: before) hs.2, List.singleton_append]

theorem lower_lower (s : String) : lower (lower s) = lower s := by
  have hlowered := isLowered_lowerAfter [] s.toList
  unfold lower
  rw [String.toList_ofList, lowerAfter_of_isLowered [] hlowered]

theorem slash_mem_lowered (before after : List Char) :
    '/' ∈ lowered before c after ↔ c = '/' := by
  unfold lowered
  split
  · next hdot => simp [hdot]
  · next hdot =>
    split
    · next hsigma =>
      rw [hsigma]
      split <;> simp
    · rw [List.mem_singleton, eq_comm]
      exact lowerChar_eq_slash hdot

theorem slash_mem_lower (s : String) : '/' ∈ (lower s).toList ↔ '/' ∈ s.toList := by
  have hafter (before cs : List Char) : '/' ∈ lowerAfter before cs ↔ '/' ∈ cs := by
    induction cs generalizing before with
    | nil => rfl
    | cons c cs ih =>
      rw [lowerAfter, List.mem_append, slash_mem_lowered, ih, List.mem_cons, eq_comm]
  rw [lower, String.toList_ofList]
  exact hafter [] s.toList

end LeakScan.Text
