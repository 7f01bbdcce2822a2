import LeakScan.Text.Utf8
import Mathlib.Algebra.Group.Nat.Defs
import Mathlib.Data.List.Infix
import Mathlib.Tactic.MkIffOfInductiveProp
import Mathlib.Tactic.SplitIfs

namespace LeakScan.Text

variable {b low high : UInt8} {k n bits position skip : Nat} {s bytes : List UInt8}
  {lead : Utf8Lead} {c : Char} {cs : List Char} {e : Utf8Failure}

/-- The bytes behind the first one: `k` of them, six bits of the character's number in each. -/
def trail : Nat → Nat → List UInt8
  | 0, _ => []
  | k + 1, n => (0x80 + n / 64 ^ k % 64).toUInt8 :: trail k n

def FirstByte (b : UInt8) (k n : Nat) : Prop :=
  k = 0 ∧ n < 0x80 ∧ b.toNat = n ∨
  k = 1 ∧ 0x80 ≤ n ∧ n < 0x800 ∧ b.toNat = 0xC0 + n / 64 ∨
  k = 2 ∧ 0x800 ≤ n ∧ n < 0x10000 ∧ b.toNat = 0xE0 + n / 4096 ∨
  k = 3 ∧ 0x10000 ≤ n ∧ b.toNat = 0xF0 + n / 262144

/-- The bytes of a number behind the first one are such as the first one asks for. -/
@[mk_iff]
structure Utf8Lead.Asks (lead : Utf8Lead) (n : Nat) : Prop where
  bits : n / 64 ^ lead.follow = lead.bits
  second : ∀ d ∈ (trail lead.follow n).head?, lead.low ≤ d ∧ d ≤ lead.high

theorem toNat_toUInt8 (h : n < 256) : n.toUInt8.toNat = n := UInt8.toNat_ofNat_of_lt h

theorem toUInt8_eq (h : b.toNat = n) : n.toUInt8 = b := by
  rw [← h]
  exact UInt8.ofNat_toNat

theorem length_trail (k n : Nat) : (trail k n).length = k := by
  induction k with
  | zero => rfl
  | succ k ih => rw [trail, List.length_cons, ih]

theorem second_within : (∀ d ∈ (trail (k + 1) n).head?, low ≤ d ∧ d ≤ high) ↔
    low.toNat ≤ 0x80 + n / 64 ^ k % 64 ∧ 0x80 + n / 64 ^ k % 64 ≤ high.toNat := by
  rw [trail, List.head?_cons]
  simp only [Option.mem_some_iff, forall_eq', UInt8.le_iff_toNat_le]
  rw [toNat_toUInt8 (by omega)]

theorem second_of_trail : ∀ d ∈ (trail k n).head?, 0x80 ≤ d ∧ d ≤ 0xBF := by
  cases k with
  | zero => simp [trail]
  | succ k =>
    rw [second_within]
    simp only [UInt8.reduceToNat]
    omega

theorem utf8Lead?_eq_some_iff : utf8Lead? b = some lead ↔
    b.toNat < 0x80 ∧ lead = ⟨0, 0x80, 0xBF, b.toNat⟩ ∨
    (0xC2 ≤ b.toNat ∧ b.toNat < 0xE0) ∧ lead = ⟨1, 0x80, 0xBF, b.toNat - 0xC0⟩ ∨
    b.toNat = 0xE0 ∧ lead = ⟨2, 0xA0, 0xBF, 0⟩ ∨
    b.toNat = 0xED ∧ lead = ⟨2, 0x80, 0x9F, 0xD⟩ ∨
    (0xE0 < b.toNat ∧ b.toNat < 0xF0 ∧ b.toNat ≠ 0xED) ∧
      lead = ⟨2, 0x80, 0xBF, b.toNat - 0xE0⟩ ∨
    b.toNat = 0xF0 ∧ lead = ⟨3, 0x90, 0xBF, 0⟩ ∨
    (0xF0 < b.toNat ∧ b.toNat < 0xF4) ∧ lead = ⟨3, 0x80, 0xBF, b.toNat - 0xF0⟩ ∨
    b.toNat = 0xF4 ∧ lead = ⟨3, 0x80, 0x8F, 4⟩ := by
  simp only [utf8Lead?, UInt8.lt_iff_toNat_lt, ← UInt8.toNat_inj, UInt8.reduceToNat]
  grind

theorem bounds_of_lead (h : utf8Lead? b = some lead) : 0x80 ≤ lead.low ∧ lead.high ≤ 0xBF := by
  rcases utf8Lead?_eq_some_iff.1 h with ⟨-, rfl⟩ | ⟨-, rfl⟩ | ⟨-, rfl⟩ | ⟨-, rfl⟩ | ⟨-, rfl⟩ |
    ⟨-, rfl⟩ | ⟨-, rfl⟩ | ⟨-, rfl⟩
  all_goals
    dsimp only
    decide

theorem asks_iff (h : utf8Lead? b = some lead) :
    lead.Asks n ↔ n.isValidChar ∧ FirstByte b lead.follow n := by
  rw [Utf8Lead.asks_iff, Nat.isValidChar, FirstByte]
  rcases utf8Lead?_eq_some_iff.1 h with ⟨hb, rfl⟩ | ⟨hb, rfl⟩ | ⟨hb, rfl⟩ | ⟨hb, rfl⟩ |
    ⟨hb, rfl⟩ | ⟨hb, rfl⟩ | ⟨hb, rfl⟩ | ⟨hb, rfl⟩
  · simp only [trail, List.head?_nil, Option.mem_def, reduceCtorEq, Nat.pow_zero, Nat.div_one,
      true_and, IsEmpty.forall_iff, implies_true, and_true]
    omega
  all_goals
    simp only [second_within, UInt8.reduceToNat, Nat.reducePow, Nat.div_one, true_and]
    clear h
    omega

theorem exists_firstByte (hn : n.isValidChar) : ∃ b k, FirstByte b k n := by
  rw [Nat.isValidChar] at hn
  by_cases h1 : n < 0x80
  · exact ⟨n.toUInt8, 0, .inl ⟨rfl, h1, toNat_toUInt8 (by omega)⟩⟩
  by_cases h2 : n < 0x800
  · exact ⟨(0xC0 + n / 64).toUInt8, 1,
      .inr (.inl ⟨rfl, by omega, h2, toNat_toUInt8 (by omega)⟩)⟩
  by_cases h3 : n < 0x10000
  · exact ⟨(0xE0 + n / 4096).toUInt8, 2,
      .inr (.inr (.inl ⟨rfl, by omega, h3, toNat_toUInt8 (by omega)⟩))⟩
  · exact ⟨(0xF0 + n / 262144).toUInt8, 3,
      .inr (.inr (.inr ⟨rfl, by omega, toNat_toUInt8 (by omega)⟩))⟩

theorem lead_of_firstByte (hn : n.isValidChar) (h : FirstByte b k n) :
    ∃ lead, utf8Lead? b = some lead ∧ lead.follow = k := by
  rw [Nat.isValidChar] at hn
  simp only [utf8Lead?_eq_some_iff]
  obtain ⟨rfl, hk, hb⟩ | ⟨rfl, hlow, hhigh, hb⟩ | ⟨rfl, hlow, hhigh, hb⟩ | ⟨rfl, hlow, hb⟩ := h
  · exact ⟨_, .inl ⟨by omega, rfl⟩, rfl⟩
  · exact ⟨_, .inr (.inl ⟨by omega, rfl⟩), rfl⟩
  · by_cases hE0 : b.toNat = 0xE0
    · exact ⟨_, .inr (.inr (.inl ⟨hE0, rfl⟩)), rfl⟩
    by_cases hED : b.toNat = 0xED
    · exact ⟨_, .inr (.inr (.inr (.inl ⟨hED, rfl⟩))), rfl⟩
    · exact ⟨_, .inr (.inr (.inr (.inr (.inl ⟨by omega, rfl⟩)))), rfl⟩
  · by_cases hF0 : b.toNat = 0xF0
    · exact ⟨_, .inr (.inr (.inr (.inr (.inr (.inl ⟨hF0, rfl⟩))))), rfl⟩
    by_cases hF4 : b.toNat = 0xF4
    · exact ⟨_, .inr (.inr (.inr (.inr (.inr (.inr (.inr ⟨hF4, rfl⟩)))))), rfl⟩
    · exact ⟨_, .inr (.inr (.inr (.inr (.inr (.inr (.inl ⟨by omega, rfl⟩)))))), rfl⟩

theorem encodeChar_of_firstByte (h : FirstByte b k c.toNat) :
    encodeChar c = b :: trail k c.toNat := by
  obtain ⟨rfl, hn, hb⟩ | ⟨rfl, hlow, hhigh, hb⟩ | ⟨rfl, hlow, hhigh, hb⟩ | ⟨rfl, hlow, hb⟩ := h
  · simp only [encodeChar, if_pos hn, toUInt8_eq hb, trail]
  · have h1 : ¬ c.toNat < 0x80 := by omega
    simp [encodeChar, h1, hhigh, toUInt8_eq hb, trail]
  · have h1 : ¬ c.toNat < 0x80 := by omega
    have h2 : ¬ c.toNat < 0x800 := by omega
    simp [encodeChar, h1, h2, hhigh, toUInt8_eq hb, trail]
  · have h1 : ¬ c.toNat < 0x80 := by omega
    have h2 : ¬ c.toNat < 0x800 := by omega
    have h3 : ¬ c.toNat < 0x10000 := by omega
    simp [encodeChar, h1, h2, h3, toUInt8_eq hb, trail]

theorem utf8Rest_cons : utf8Rest (k + 1) low high bits (b :: s) = .ok n ↔
    (low ≤ b ∧ b ≤ high) ∧ utf8Rest k 0x80 0xBF (bits * 64 + (b.toNat - 0x80)) s = .ok n := by
  rw [utf8Rest]
  split
  · next h => cases utf8Rest k 0x80 0xBF (bits * 64 + (b.toNat - 0x80)) s <;> simp [h]
  · next h => simp [h]

theorem utf8Rest_eq_ok_iff (hlow : 0x80 ≤ low) (hhigh : high ≤ 0xBF) :
    utf8Rest k low high bits s = .ok n ↔
      n / 64 ^ k = bits ∧ trail k n <+: s ∧ ∀ d ∈ (trail k n).head?, low ≤ d ∧ d ≤ high := by
  induction k generalizing low high bits s with
  | zero => simp [utf8Rest, trail, eq_comm]
  | succ k ih =>
    cases s with
    | nil => simp [utf8Rest, trail]
    | cons b s =>
      have hbyte : (low ≤ b ∧ b ≤ high) ∧ n / 64 ^ k = bits * 64 + (b.toNat - 0x80) ↔
          n / 64 ^ k / 64 = bits ∧ (0x80 + n / 64 ^ k % 64).toUInt8 = b ∧ low ≤ b ∧ b ≤ high := by
        rw [← UInt8.toNat_inj, toNat_toUInt8 (by omega)]
        simp only [UInt8.le_iff_toNat_le, UInt8.reduceToNat] at hlow hhigh ⊢
        omega
      rw [utf8Rest_cons, ih (by decide) (by decide), and_iff_left second_of_trail, ← and_assoc,
        hbyte, trail, List.cons_prefix_cons, Nat.pow_succ, ← Nat.div_div_eq_div_mul,
        List.head?_cons]
      simp only [Option.mem_some_iff, forall_eq']
      constructor
      · rintro ⟨⟨hn, rfl, hb⟩, hs⟩
        exact ⟨hn, ⟨rfl, hs⟩, hb⟩
      · rintro ⟨hn, ⟨rfl, hs⟩, hb⟩
        exact ⟨⟨hn, rfl, hb⟩, hs⟩

theorem utf8Rest_of_lead (h : utf8Lead? b = some lead) :
    utf8Rest lead.follow lead.low lead.high lead.bits s = .ok n ↔
      lead.Asks n ∧ trail lead.follow n <+: s := by
  obtain ⟨hlow, hhigh⟩ := bounds_of_lead h
  rw [utf8Rest_eq_ok_iff hlow hhigh, Utf8Lead.asks_iff]
  tauto

theorem utf8Rest_error {good : List UInt8} {fault : Utf8Fault}
    (h : utf8Rest k low high bits s = .error (good, fault)) : good <+: s := by
  induction k generalizing low high bits s good with
  | zero => simp [utf8Rest] at h
  | succ k ih =>
    cases s with
    | nil =>
      obtain ⟨rfl, -⟩ : [] = good ∧ _ := by simpa [utf8Rest] using h
      exact List.nil_prefix
    | cons b s =>
      rw [utf8Rest] at h
      split at h
      · cases hrest : utf8Rest k 0x80 0xBF (bits * 64 + (b.toNat - 0x80)) s with
        | ok code => simp [hrest] at h
        | error e =>
          obtain ⟨more, f⟩ := e
          obtain ⟨rfl, rfl⟩ : b :: more = good ∧ f = fault := by simpa [hrest] using h
          exact List.cons_prefix_cons.2 ⟨rfl, ih hrest⟩
      · obtain ⟨rfl, -⟩ : [] = good ∧ _ := by simpa using h
        exact List.nil_prefix

theorem utf8From_skip (position : Nat) (t s : List UInt8) :
    utf8From position t.length (t ++ s) = utf8From (position + t.length) 0 s := by
  induction t generalizing position with
  | nil => rfl
  | cons b t ih =>
    rw [List.length_cons, List.cons_append, utf8From, ih, Nat.add_right_comm, Nat.add_assoc]

theorem utf8From_char (position : Nat) (c : Char) (s : List UInt8) :
    utf8From position 0 (encodeChar c ++ s) =
      (utf8From (position + (encodeChar c).length) 0 s).map (c :: ·) := by
  obtain ⟨b, k, hfirst⟩ := exists_firstByte c.valid
  obtain ⟨lead, hlead, rfl⟩ := lead_of_firstByte c.valid hfirst
  have hrest : utf8Rest lead.follow lead.low lead.high lead.bits
      (trail lead.follow c.toNat ++ s) = .ok c.toNat :=
    (utf8Rest_of_lead hlead).2 ⟨(asks_iff hlead).2 ⟨c.valid, hfirst⟩, List.prefix_append _ _⟩
  have hskip := utf8From_skip (position + 1) (trail lead.follow c.toNat) s
  rw [length_trail] at hskip
  rw [encodeChar_of_firstByte hfirst, List.cons_append, utf8From, hlead]
  simp only [hrest, hskip, Char.ofNat_toNat, List.length_cons, length_trail, Nat.add_assoc,
    Nat.add_comm 1]
  cases utf8From (position + (lead.follow + 1)) 0 s <;> rfl

theorem utf8From_fault (position : Nat) (h : ∀ c, ¬ encodeChar c <+: b :: s) :
    ∃ good fault, utf8From position 0 (b :: s) = .error ⟨position, b :: good, fault⟩ ∧
      good <+: s := by
  cases hlead : utf8Lead? b with
  | none => exact ⟨[], .invalidStart, by rw [utf8From, hlead], List.nil_prefix⟩
  | some lead =>
    cases hrest : utf8Rest lead.follow lead.low lead.high lead.bits s with
    | error e => exact ⟨e.1, e.2, by simp only [utf8From, hlead, hrest], utf8Rest_error hrest⟩
    | ok n =>
      obtain ⟨hasks, hs⟩ := (utf8Rest_of_lead hlead).1 hrest
      obtain ⟨hn, hfirst⟩ := (asks_iff hlead).1 hasks
      have hc : (Char.ofNat n).toNat = n := by
        rw [Char.ofNat, dif_pos hn]
        rfl
      rw [← hc] at hfirst hs
      refine absurd ?_ (h (Char.ofNat n))
      rw [encodeChar_of_firstByte hfirst, List.cons_prefix_cons]
      exact ⟨rfl, hs⟩

theorem encodeChar_ne_nil (c : Char) : encodeChar c ≠ [] := by
  obtain ⟨b, k, h⟩ := exists_firstByte c.valid
  simp [encodeChar_of_firstByte h]

theorem encodeUtf8_cons (c : Char) (cs : List Char) :
    encodeUtf8 (c :: cs) = encodeChar c ++ encodeUtf8 cs := List.flatMap_cons

theorem utf8From_append (position : Nat) (cs : List Char) (s : List UInt8) :
    utf8From position 0 (encodeUtf8 cs ++ s) =
      (utf8From (position + (encodeUtf8 cs).length) 0 s).map (cs ++ ·) := by
  induction cs generalizing position with
  | nil => cases h : utf8From position 0 s <;> simp [encodeUtf8, h, Except.map]
  | cons c cs ih =>
    rw [encodeUtf8_cons, List.append_assoc, utf8From_char, ih, List.length_append, Nat.add_assoc]
    cases utf8From (position + ((encodeChar c).length + (encodeUtf8 cs).length)) 0 s <;> rfl

theorem le_position (h : utf8From position skip s = .error e) : position ≤ e.position := by
  induction s generalizing position skip with
  | nil => simp [utf8From] at h
  | cons b s ih =>
    have hnext : ∀ skip, utf8From (position + 1) skip s = .error e → position ≤ e.position :=
      fun skip hs => Nat.le_of_succ_le (ih hs)
    cases skip with
    | succ skip => exact hnext skip h
    | zero =>
      rw [utf8From] at h
      split at h
      · exact Nat.le_of_eq (congrArg Utf8Failure.position (Except.error.inj h))
      · next lead _ =>
        split at h
        · exact Nat.le_of_eq (congrArg Utf8Failure.position (Except.error.inj h))
        · split at h
          · simp at h
          · next hs => exact hnext lead.follow (Except.error.inj h ▸ hs)

theorem exists_characters (bytes : List UInt8) : ∃ cs s, bytes = encodeUtf8 cs ++ s ∧
    (s = [] ∨ ∃ b r, s = b :: r ∧ ∀ c, ¬ encodeChar c <+: b :: r) := by
  induction hn : bytes.length using Nat.strong_induction_on generalizing bytes with
  | _ n ih =>
    subst hn
    cases bytes with
    | nil => exact ⟨[], [], rfl, .inl rfl⟩
    | cons b r =>
      by_cases h : ∃ c, encodeChar c <+: b :: r
      · obtain ⟨c, s, hs⟩ := h
        have hlt : s.length < (b :: r).length := by
          rw [← hs, List.length_append]
          have := List.length_pos_iff.2 (encodeChar_ne_nil c)
          omega
        obtain ⟨cs, t, rfl, ht⟩ := ih s.length hlt s rfl
        exact ⟨c :: cs, t, by rw [← hs, encodeUtf8_cons, List.append_assoc], ht⟩
      · exact ⟨[], b :: r, rfl, .inr ⟨b, r, rfl, fun c hc => h ⟨c, hc⟩⟩⟩

theorem decodeUtf8_eq_ok_iff : decodeUtf8 bytes = .ok cs ↔ bytes = encodeUtf8 cs := by
  have hread (cs : List Char) : decodeUtf8 (encodeUtf8 cs) = .ok cs := by
    have h := utf8From_append 0 cs []
    rw [List.append_nil] at h
    rw [decodeUtf8, h]
    simp [utf8From, Except.map]
  constructor
  · intro h
    obtain ⟨ds, s, rfl, rfl | ⟨b, r, rfl, hstuck⟩⟩ := exists_characters bytes
    · rw [List.append_nil] at h ⊢
      rw [Except.ok.inj ((hread ds).symm.trans h)]
    · obtain ⟨good, fault, hfault, -⟩ := utf8From_fault (0 + (encodeUtf8 ds).length) hstuck
      rw [decodeUtf8, utf8From_append, hfault] at h
      simp [Except.map] at h
  · rintro rfl
    exact hread cs

def IsUtf8 (bytes : List UInt8) : Prop := bytes.toByteArray.IsValidUTF8

/-- Of all parts that stand at the start of the bytes and are UTF-8, the longest has this length. -/
structure LongestUtf8 (bytes : List UInt8) (n : Nat) : Prop where
  reached : ∃ p, p <+: bytes ∧ IsUtf8 p ∧ p.length = n
  greatest : ∀ p, p <+: bytes → IsUtf8 p → p.length ≤ n

theorem encodeChar_eq (c : Char) : encodeChar c = String.utf8EncodeChar c := by
  have hc : c.toNat < 0xD800 ∨ 0xDFFF < c.toNat ∧ c.toNat < 0x110000 := c.valid
  have hval : c.val.toNat = c.toNat := rfl
  simp only [encodeChar, String.utf8EncodeChar, hval, Nat.toUInt8_eq]
  by_cases h1 : c.toNat < 0x80
  · rw [if_pos h1, if_pos (Nat.le_of_lt_succ h1)]
  by_cases h2 : c.toNat < 0x800
  · rw [if_neg h1, if_pos h2, if_neg (by omega), if_pos (Nat.le_of_lt_succ h2),
      Nat.mod_eq_of_lt (by omega : c.toNat / 64 < 32), Nat.add_comm 0xC0, Nat.add_comm 0x80]
  by_cases h3 : c.toNat < 0x10000
  · rw [if_neg h1, if_neg h2, if_pos h3, if_neg (by omega), if_neg (by omega),
      if_pos (Nat.le_of_lt_succ h3), Nat.mod_eq_of_lt (by omega : c.toNat / 4096 < 16),
      Nat.add_comm 0xE0, Nat.add_comm 0x80, Nat.add_comm 0x80]
  · rw [if_neg h1, if_neg h2, if_neg h3, if_neg (by omega), if_neg (by omega), if_neg (by omega),
      Nat.mod_eq_of_lt (by omega : c.toNat / 262144 < 8),
      Nat.add_comm 0xF0, Nat.add_comm 0x80, Nat.add_comm 0x80, Nat.add_comm 0x80]

theorem toByteArray_encodeUtf8 (cs : List Char) :
    (encodeUtf8 cs).toByteArray = (String.ofList cs).toUTF8 := by
  rw [String.toUTF8_eq_toByteArray, String.toByteArray_ofList, List.utf8Encode, encodeUtf8]
  simp only [funext encodeChar_eq]

theorem decodeUtf8_eq_ok_iff_toUTF8 {content : String} :
    decodeUtf8 bytes = .ok content.toList ↔ content.toUTF8 = bytes.toByteArray := by
  rw [decodeUtf8_eq_ok_iff, ← List.toByteArray_inj, toByteArray_encodeUtf8, String.ofList_toList,
    eq_comm]

theorem isUtf8_iff : IsUtf8 bytes ↔ ∃ cs, bytes = encodeUtf8 cs := by
  have hform (cs : List Char) : cs.utf8Encode = (encodeUtf8 cs).toByteArray := by
    rw [toByteArray_encodeUtf8, String.toUTF8_eq_toByteArray, String.toByteArray_ofList]
  constructor
  · rintro ⟨cs, hcs⟩
    rw [hform, List.toByteArray_inj] at hcs
    exact ⟨cs, hcs⟩
  · rintro ⟨cs, rfl⟩
    exact ⟨cs, (hform cs).symm⟩

theorem isUtf8_of_decoded (h : decodeUtf8 bytes = .ok cs) : IsUtf8 bytes :=
  isUtf8_iff.2 ⟨cs, decodeUtf8_eq_ok_iff.1 h⟩

theorem fault_of_decodeUtf8 (h : decodeUtf8 bytes = .error e) : LongestUtf8 bytes e.position ∧
    ∃ b good, e.span = b :: good ∧ b :: good <+: bytes.drop e.position := by
  obtain ⟨cs, s, rfl, rfl | ⟨b, r, rfl, hstuck⟩⟩ := exists_characters bytes
  · rw [List.append_nil, decodeUtf8_eq_ok_iff.2 rfl] at h
    simp at h
  · obtain ⟨good, fault, hfault, hgood⟩ := utf8From_fault (0 + (encodeUtf8 cs).length) hstuck
    have hread := h
    rw [decodeUtf8, utf8From_append, hfault, Nat.zero_add] at hread
    obtain rfl := Except.error.inj hread
    refine ⟨⟨⟨encodeUtf8 cs, List.prefix_append _ _, isUtf8_iff.2 ⟨cs, rfl⟩, rfl⟩, ?_⟩, b, good,
      rfl, ?_⟩
    · -- Reading goes through any such part without a fault, and the fault is not behind its start.
      rintro p ⟨t, ht⟩ hp
      obtain ⟨ds, rfl⟩ := isUtf8_iff.1 hp
      rw [← ht, decodeUtf8, utf8From_append, Nat.zero_add] at h
      cases hrest : utf8From (encodeUtf8 ds).length 0 t with
      | ok es => simp [hrest, Except.map] at h
      | error f =>
        rw [hrest] at h
        exact Except.error.inj h ▸ le_position hrest
    · rw [List.drop_left, List.cons_prefix_cons]
      exact ⟨rfl, hgood⟩

end LeakScan.Text
