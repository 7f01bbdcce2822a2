import LeakScan.Text.Lower

namespace LeakScan.Text

def capitals : List Char :=
  ['A', 'B', 'C', 'D', 'E', 'F', 'G', 'H', 'I', 'J', 'K', 'L', 'M', 'N', 'O', 'P', 'Q', 'R', 'S',
    'T', 'U', 'V', 'W', 'X', 'Y', 'Z']

theorem mem_capitals {c : Char} (h : c.isUpper = true) : c ∈ capitals := by
  have hcode : 'A'.val ≤ c.val ∧ c.val ≤ 'Z'.val := of_decide_eq_true h
  have hlow : 65 ≤ c.toNat := UInt32.le_iff_toNat_le.1 hcode.1
  have hhigh : c.toNat ≤ 90 := UInt32.le_iff_toNat_le.1 hcode.2
  have hall : ∀ n ∈ List.range' 65 26, Char.ofNat n ∈ capitals := by decide
  rw [← Char.ofNat_toNat c]
  exact hall c.toNat (by simp only [List.mem_range'_1]; omega)

theorem toLower_eq_of_capitals {α : Type} {f : Char → α}
    (h : capitals.map (fun c => f c.toLower) = capitals.map f) (c : Char) :
    f c.toLower = f c := by
  cases hc : c.isUpper with
  | true => exact List.map_inj_left.1 h c (mem_capitals hc)
  | false =>
    have hsame : c.toLower = c := dif_neg (of_decide_eq_false hc)
    rw [hsame]

theorem isCased_toLower (c : Char) : isCased c.toLower = isCased c :=
  toLower_eq_of_capitals (by decide +kernel) c

def isLetter (n : Nat) : Bool := (65 ≤ n && n ≤ 90) || (97 ≤ n && n ≤ 122)

theorem not_isCaseIgnorable {c : Char} (h : isLetter c.toNat = true) :
    isCaseIgnorable c = false := by
  have happart : ∀ r ∈ caseIgnorableRanges, r.2 < 65 ∨ (90 < r.1 ∧ r.2 < 97) ∨ 122 < r.1 := by
    decide +kernel
  refine List.any_eq_false.2 fun r hr => ?_
  have hr := happart r hr
  simp only [isLetter, Bool.or_eq_true, Bool.and_eq_true, decide_eq_true_eq] at h ⊢
  omega

theorem isCaseIgnorable_toLower (c : Char) : isCaseIgnorable c.toLower = isCaseIgnorable c := by
  have hletters : capitals.all (fun c => isLetter c.toNat && isLetter c.toLower.toNat) = true := by
    decide
  refine toLower_eq_of_capitals (List.map_congr_left fun c hc => ?_) c
  obtain ⟨hcapital, hsmall⟩ := Bool.and_eq_true_iff.1 (List.all_eq_true.1 hletters c hc)
  rw [not_isCaseIgnorable hcapital, not_isCaseIgnorable hsmall]

theorem lowerChar_toLower (c : Char) : lowerChar c.toLower = lowerChar c :=
  toLower_eq_of_capitals (by decide) c

theorem meetsCased_toLower (s : List Char) : meetsCased (s.map Char.toLower) = meetsCased s := by
  unfold meetsCased
  rw [List.find?_map]
  have hskip : (fun c => !isCaseIgnorable c) ∘ Char.toLower = fun c => !isCaseIgnorable c :=
    funext fun c => congrArg (!·) (isCaseIgnorable_toLower c)
  rw [hskip]
  cases s.find? fun c => !isCaseIgnorable c with
  | none => rfl
  | some c => exact isCased_toLower c

theorem lowered_toLower (before : List Char) (c : Char) (after : List Char) :
    lowered (before.map Char.toLower) c.toLower (after.map Char.toLower) =
      lowered before c after := by
  have hdotted : c.toLower = '\u0130' ↔ c = '\u0130' := by
    simpa using toLower_eq_of_capitals (f := fun c => decide (c = '\u0130')) (by decide) c
  have hsigma : c.toLower = '\u03A3' ↔ c = '\u03A3' := by
    simpa using toLower_eq_of_capitals (f := fun c => decide (c = '\u03A3')) (by decide) c
  simp only [lowered, hdotted, hsigma, meetsCased_toLower, lowerChar_toLower]

theorem lowerAfter_toLower (before s : List Char) :
    lowerAfter (before.map Char.toLower) (s.map Char.toLower) = lowerAfter before s := by
  induction s generalizing before with
  | nil => rfl
  | cons c s ih =>
    rw [List.map_cons, lowerAfter, lowerAfter, lowered_toLower, ← List.map_cons, ih]

theorem toList_toLower (s : String) : s.toLower.toList = s.toList.map Char.toLower :=
  String.toList_map

theorem lower_toLower (s : String) : lower s.toLower = lower s := by
  rw [lower, lower, toList_toLower]
  exact congrArg String.ofList (lowerAfter_toLower [] s.toList)

end LeakScan.Text
