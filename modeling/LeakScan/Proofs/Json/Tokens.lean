import LeakScan.Json.Parser
import LeakScan.Json.Printer

namespace LeakScan

variable {base n value : Nat} {ds more : List Char}

theorem digitsAfter_append :
    digitsAfter base value (ds ++ more) =
      (digitsAfter base value ds).bind fun v => digitsAfter base v more := by
  induction ds generalizing value with
  | nil => rfl
  | cons c ds ih =>
    rw [List.cons_append, digitsAfter, digitsAfter]
    split
    · split
      · exact ih
      · rfl
    · rfl

theorem digitValue?_digitChar (h : n < 16) : digitValue? (Nat.digitChar n) = some n := by
  revert n
  decide

theorem digitsAfter_hexDigits (width n value : Nat) :
    digitsAfter 16 value (Text.hexDigits width n) =
      some (value * Nat.pow 16 width + n % Nat.pow 16 width) := by
  induction width generalizing n value with
  | zero => simp [Text.hexDigits, digitsAfter, Nat.mod_one]
  | succ width ih =>
    have hlt : n % 16 < 16 := Nat.mod_lt n (by omega)
    have hpow : Nat.pow 16 (width + 1) = 16 * Nat.pow 16 width := Nat.mul_comm _ 16
    rw [Text.hexDigits, digitsAfter_append, ih]
    simp only [Option.bind_some, digitsAfter, digitValue?_digitChar hlt, hlt, if_true]
    rw [hpow, Nat.mod_mul, Nat.mul_left_comm value 16]
    congr 1
    omega

theorem digitsAfter_eq_ofDigitChars (h : ∀ c ∈ ds, c.isDigit = true) :
    digitsAfter 10 value ds = some (Nat.ofDigitChars 10 ds value) := by
  induction ds generalizing value with
  | nil => rfl
  | cons c ds ih =>
    have hc := h c List.mem_cons_self
    have hten : c.toNat - '0'.toNat < 10 := by
      have hnine := (Bool.and_eq_true_iff.1 hc).2
      have hle : c.toNat ≤ '9'.toNat := by simpa [UInt32.le_iff_toNat_le] using hnine
      have hval : '9'.toNat = '0'.toNat + 9 := rfl
      omega
    rw [digitsAfter, digitValue?, if_pos hc]
    simp only [hten, if_true]
    rw [ih fun d hd => h d (List.mem_cons_of_mem _ hd), Nat.ofDigitChars_cons, Nat.mul_comm 10]

theorem natOfDigits?_toDigits (n : Nat) : natOfDigits? 10 (Nat.toDigits 10 n) = some n := by
  obtain ⟨c, ds, hds⟩ := List.exists_cons_of_ne_nil (Nat.toDigits_ne_nil : Nat.toDigits 10 n ≠ [])
  have hdigits (d : Char) (hd : d ∈ Nat.toDigits 10 n) : d.isDigit = true :=
    Nat.isDigit_of_mem_toDigits (by omega) (by omega) hd
  have h : digitsAfter 10 0 (Nat.toDigits 10 n) = some (Nat.ofDigitChars 10 _ 0) :=
    digitsAfter_eq_ofDigitChars hdigits
  rw [Nat.ofDigitChars_ten_toDigits] at h
  rw [hds] at h ⊢
  exact h

namespace Text.Code

@[simp] theorem ofChars_nil : ofChars [] = [] := rfl

@[simp] theorem ofChars_cons (c : Char) (s : List Char) :
    ofChars (c :: s) = char c :: ofChars s := rfl

@[simp] theorem ofChars_append (s t : List Char) : ofChars (s ++ t) = ofChars s ++ ofChars t :=
  List.map_append

end Text.Code

namespace Json

open Text (Code)

theorem unit?_hexDigits (h : n < 0x10000) :
    unit? (Code.ofChars (Text.hexDigits 4 n)) = some n := by
  have hdigits := digitsAfter_hexDigits 4 n 0
  have hsmall : n % Nat.pow 16 4 = n := Nat.mod_eq_of_lt h
  rw [Nat.zero_mul, Nat.zero_add, hsmall] at hdigits
  rw [unit?, Code.chars?_ofChars]
  exact hdigits

theorem pieces?_unitEscape (h : n < 0x10000) (rest : List Code) :
    pieces? (Code.ofChars (unitEscape n) ++ rest) =
      (pieces? rest).map fun p => (.unit n :: p.1, p.2) := by
  have hunit := unit?_hexDigits h
  obtain ⟨a, b, c, d, hdigits⟩ : ∃ a b c d, Text.hexDigits 4 n = [a, b, c, d] :=
    ⟨_, _, _, _, rfl⟩
  rw [hdigits] at hunit
  rw [unitEscape, hdigits]
  simp only [Code.ofChars_cons, Code.ofChars_nil, List.cons_append, List.nil_append] at hunit ⊢
  rw [pieces?, hunit]
  cases pieces? rest <;> rfl

theorem joined_unit (h : n < 0xD800 ∨ 0xDC00 ≤ n) (qs : List Piece) :
    joined (.unit n :: qs) = Code.ofNat n :: joined qs := by
  cases qs with
  | nil => rfl
  | cons q qs =>
    cases q with
    | code c => rfl
    | unit low =>
      have hnone : Code.paired? n low = none := by
        rw [Code.paired?, if_neg]
        omega
      rw [joined, hnone]

theorem ofNat_toNat (c : Char) : Code.ofNat c.toNat = .char c := by
  have hvalid : ¬ (0xD800 ≤ c.toNat ∧ c.toNat < 0xE000) := by
    have h : c.toNat < 0xD800 ∨ 0xDFFF < c.toNat ∧ c.toNat < 0x110000 := c.valid
    omega
  rw [Code.ofNat, if_neg hvalid, Char.ofNat_toNat]

/-- A character is escaped by pieces that are joined to it, whatever stands around. -/
structure Spells (cs : List Char) (c : Char) (ps : List Piece) : Prop where
  read : ∀ rest, pieces? (Code.ofChars cs ++ rest) =
    (pieces? rest).map fun p => (ps ++ p.1, p.2)
  join : ∀ qs, joined (ps ++ qs) = .char c :: joined qs

theorem spells_short {e c : Char} (h : shortEscape? e = some c) :
    Spells ['\\', e] c [.code (.char c)] where
  read rest := by
    have hu : e ≠ 'u' := by
      rintro rfl
      simp [shortEscape?] at h
    show pieces? (.char '\\' :: .char e :: rest) = _
    rw [pieces?]
    · simp only [Code.char?, Option.bind_some, h]
      cases pieces? rest <;> rfl
    · simp [hu]
  join qs := rfl

theorem spells_plain {c : Char} (hlow : ' ' ≤ c) (hquote : c ≠ '"') (hback : c ≠ '\\') :
    Spells [c] c [.code (.char c)] where
  read rest := by
    have hlow : 0x20 ≤ c.toNat := hlow
    have hnot : ¬ ((Code.char c).toNat < 0x20 ∨ (Code.char c).is '\\' = true) := by
      simp [Code.toNat, Code.is, hback, hlow]
    show pieces? (.char c :: rest) = _
    rw [pieces?, if_neg hnot]
    · cases pieces? rest <;> rfl
    · simp [hquote]
    · simp [hback]
    · simp [hback]
  join qs := rfl

theorem spells_unit {c : Char} (h : c.toNat < 0x10000) :
    Spells (unitEscape c.toNat) c [.unit c.toNat] where
  read rest := pieces?_unitEscape h rest
  join qs := by
    have hvalid : c.toNat < 0xD800 ∨ 0xDFFF < c.toNat ∧ c.toNat < 0x110000 := c.valid
    show joined (.unit c.toNat :: qs) = _
    rw [joined_unit (by omega), ofNat_toNat]

theorem spells_pair {c : Char} (h : 0x10000 ≤ c.toNat) :
    Spells (unitEscape (0xD800 + (c.toNat - 0x10000) / 0x400) ++
        unitEscape (0xDC00 + (c.toNat - 0x10000) % 0x400)) c
      [.unit (0xD800 + (c.toNat - 0x10000) / 0x400), .unit (0xDC00 + (c.toNat - 0x10000) % 0x400)]
    where
  read rest := by
    have hvalid : c.toNat < 0xD800 ∨ 0xDFFF < c.toNat ∧ c.toNat < 0x110000 := c.valid
    rw [Code.ofChars_append, List.append_assoc, pieces?_unitEscape (by omega),
      pieces?_unitEscape (by omega)]
    cases pieces? rest <;> rfl
  join qs := by
    have hvalid : c.toNat < 0xD800 ∨ 0xDFFF < c.toNat ∧ c.toNat < 0x110000 := c.valid
    have hpair : Code.paired? (0xD800 + (c.toNat - 0x10000) / 0x400)
        (0xDC00 + (c.toNat - 0x10000) % 0x400) = some c := by
      rw [Code.paired?, if_pos (by omega)]
      have hsum : 0x10000 + (0xD800 + (c.toNat - 0x10000) / 0x400 - 0xD800) * 0x400 +
          (0xDC00 + (c.toNat - 0x10000) % 0x400 - 0xDC00) = c.toNat := by omega
      rw [hsum, Char.ofNat_toNat]
    show joined (.unit _ :: .unit _ :: qs) = _
    rw [joined, hpair]

theorem escapeChar_spells (c : Char) : ∃ ps, Spells (escapeChar c) c ps := by
  by_cases hshort : c ∈ ['"', '\\', '\n', '\r', '\t', '\x0c', '\x08']
  · simp only [List.mem_cons, List.not_mem_nil, or_false] at hshort
    rcases hshort with rfl | rfl | rfl | rfl | rfl | rfl | rfl <;> exact ⟨_, spells_short rfl⟩
  · simp only [List.mem_cons, not_or] at hshort
    obtain ⟨hquote, hback, hn, hr, ht, hf, hb, -⟩ := hshort
    rw [escapeChar, if_neg hquote, if_neg hback, if_neg hn, if_neg hr, if_neg ht, if_neg hf,
      if_neg hb]
    by_cases hplain : ' ' ≤ c ∧ c ≤ '~'
    · rw [if_pos hplain]
      exact ⟨_, spells_plain hplain.1 hquote hback⟩
    · rw [if_neg hplain]
      by_cases hunit : c.toNat < 0x10000
      · rw [if_pos hunit]
        exact ⟨_, spells_unit hunit⟩
      · rw [if_neg hunit]
        exact ⟨_, spells_pair (Nat.le_of_not_lt hunit)⟩

theorem pieces?_of_escaped (s : List Char) (rest : List Code) :
    ∃ ps, pieces? (Code.ofChars (s.flatMap escapeChar) ++ .char '"' :: rest) = some (ps, rest) ∧
      joined ps = Code.ofChars s := by
  induction s with
  | nil => exact ⟨[], rfl, rfl⟩
  | cons c s ih =>
    obtain ⟨ps, hps, hs⟩ := ih
    obtain ⟨qs, hqs, hc⟩ := escapeChar_spells c
    refine ⟨qs ++ ps, ?_, by rw [hc, hs]; rfl⟩
    rw [List.flatMap_cons, Code.ofChars_append, List.append_assoc, hqs, hps]
    rfl

theorem quotedText_of_escaped (s : List Char) (rest : List Code) :
    quotedText (Code.ofChars (s.flatMap escapeChar) ++ .char '"' :: rest) =
      .ok (Code.ofChars s, rest) := by
  obtain ⟨ps, hps, hs⟩ := pieces?_of_escaped s rest
  rw [quotedText, hps]
  simp only [hs]

def Stops : List Code → Prop
  | [] => True
  | c :: _ => c = .char ',' ∨ ∃ b, c = .char b ∧ isBlank b = true

variable {rest : List Code} {limits : Limits}

theorem Stops.cons {c : Code} (h : Stops (c :: rest)) :
    ∃ b, c = .char b ∧ b.isDigit = false ∧ b ≠ '.' ∧ b ≠ 'e' ∧ b ≠ 'E' := by
  rcases h with rfl | ⟨b, rfl, hb⟩
  · exact ⟨',', rfl, by decide, by decide, by decide, by decide⟩
  · simp only [isBlank, Bool.or_eq_true, beq_iff_eq] at hb
    rcases hb with ((rfl | rfl) | rfl) | rfl <;>
      exact ⟨_, rfl, by decide, by decide, by decide, by decide⟩

theorem spanDigits_append (hds : ∀ c ∈ ds, c.isDigit = true) (hrest : Stops rest) :
    spanDigits (Code.ofChars ds ++ rest) = (ds, rest) := by
  induction ds with
  | nil =>
    cases rest with
    | nil => rfl
    | cons c rest =>
      obtain ⟨b, rfl, hb, -⟩ := hrest.cons
      simp [spanDigits, hb]
  | cons d ds ih =>
    have hd := hds d List.mem_cons_self
    have ih := ih fun c hc => hds c (List.mem_cons_of_mem _ hc)
    show spanDigits (.char d :: (Code.ofChars ds ++ rest)) = _
    rw [spanDigits, if_pos hd, ih]

theorem places_of_stops (hrest : Stops rest) : places rest = ([], rest) := by
  cases rest with
  | nil => rfl
  | cons c rest =>
    obtain ⟨b, rfl, -, hb, -⟩ := hrest.cons
    rw [places]
    simp [hb]

theorem power_of_stops (hrest : Stops rest) : power rest = ([], rest) := by
  cases rest with
  | nil => rfl
  | cons c rest =>
    obtain ⟨b, rfl, -, -, he, hE⟩ := hrest.cons
    rw [power, if_neg (by simp [he, hE])]

theorem isDigit_toDigits {c : Char} (h : c ∈ Nat.toDigits 10 n) : c.isDigit = true :=
  Nat.isDigit_of_mem_toDigits (by omega) (by omega) h

theorem toDigits_head (h : n ≠ 0) : ∃ c ds, Nat.toDigits 10 n = c :: ds ∧ c ≠ '0' := by
  induction n using Nat.strongRecOn with
  | ind n ih =>
    rw [Nat.toDigits_eq_if (by omega)]
    split
    · exact ⟨_, [], rfl, mt Nat.digitChar_eq_zero.1 h⟩
    · obtain ⟨c, ds, hds, hc⟩ := ih (n / 10) (by omega) (by omega)
      exact ⟨c, ds ++ [(n % 10).digitChar], by rw [hds]; rfl, hc⟩

theorem wholeDigits?_append (hrest : Stops rest) :
    wholeDigits? (Code.ofChars (Nat.toDigits 10 n) ++ rest) = some (Nat.toDigits 10 n, rest) := by
  by_cases hn : n = 0
  · subst hn
    rfl
  · obtain ⟨c, ds, hds, hc⟩ := toDigits_head hn
    have hdigits (d : Char) (hd : d ∈ c :: ds) : d.isDigit = true :=
      isDigit_toDigits (n := n) (hds ▸ hd)
    have hspan := spanDigits_append hdigits hrest
    rw [hds, wholeDigits?]
    · rw [hspan]
      rfl
    · simp [hc]

theorem toDigits_unsigned (n : Nat) :
    ∃ c ds, Nat.toDigits 10 n = c :: ds ∧ c.isDigit = true ∧ c ≠ '-' ∧ c ≠ '+' := by
  obtain ⟨c, ds, hds⟩ := List.exists_cons_of_ne_nil (Nat.toDigits_ne_nil : Nat.toDigits 10 n ≠ [])
  have hc : c.isDigit = true := isDigit_toDigits (n := n) (hds ▸ List.mem_cons_self)
  refine ⟨c, ds, hds, hc, ?_, ?_⟩
  · rintro rfl
    exact absurd hc (by decide)
  · rintro rfl
    exact absurd hc (by decide)

def minus (i : Int) : List Char := if i < 0 then ['-'] else []

theorem intChars_eq (i : Int) : intChars i = minus i ++ Nat.toDigits 10 i.natAbs := rfl

theorem numberSign_intChars (i : Int) (rest : List Code) :
    numberSign (Code.ofChars (intChars i) ++ rest) =
      (minus i, Code.ofChars (Nat.toDigits 10 i.natAbs) ++ rest) := by
  obtain ⟨c, ds, hds, -, hminus, -⟩ := toDigits_unsigned i.natAbs
  rw [intChars_eq, minus]
  split
  · rfl
  · rw [List.nil_append, hds, numberSign]
    simp [hminus]

theorem intOfDigits?_intChars (i : Int) : intOfDigits? (intChars i) = some i := by
  obtain ⟨c, ds, hds, -, hminus, hplus⟩ := toDigits_unsigned i.natAbs
  have hdigits := natOfDigits?_toDigits i.natAbs
  rw [intChars_eq, minus]
  split
  · next hneg =>
    have habs : -(i.natAbs : Int) = i := by omega
    rw [List.singleton_append, intOfDigits?, hdigits]
    exact congrArg some habs
  · next hnonneg =>
    have habs : (i.natAbs : Int) = i := by omega
    rw [hds] at hdigits
    rw [List.nil_append, hds, intOfDigits?]
    · rw [hdigits]
      exact congrArg some habs
    · simp [hminus]
    · simp [hplus]

theorem number_intChars {i : Int} (hrest : Stops rest)
    (hlimit : exceeds limits.digits (Nat.toDigits 10 i.natAbs).length = false) :
    number limits (Code.ofChars (intChars i) ++ rest) = .ok (.int i, rest) := by
  have hvalue : numberValue limits (minus i) (Nat.toDigits 10 i.natAbs) [] = .ok (.int i) := by
    rw [numberValue, hlimit, ← intChars_eq, intOfDigits?_intChars]
    rfl
  rw [number, numberSign_intChars]
  simp only [wholeDigits?_append hrest, places_of_stops hrest, power_of_stops hrest,
    List.append_nil, hvalue]
  rfl

end Json

end LeakScan
