import LeakScan.Proofs.Json.Tokens
import LeakScan.Text.Utf8

namespace LeakScan

def IsAscii (cs : List Char) : Prop := ∀ c ∈ cs, c.toNat < 0x80

namespace IsAscii

variable {c d : Char} {cs ds : List Char} {n width : Nat}

-- Characters are finitely many, but only those of the list are to be looked at.
instance : DecidablePred IsAscii := fun cs =>
  List.decidableBAll (fun c : Char => c.toNat < 0x80) cs

@[simp] theorem nil : IsAscii [] := List.forall_mem_nil _

@[simp] theorem cons_iff : IsAscii (c :: cs) ↔ c.toNat < 0x80 ∧ IsAscii cs := List.forall_mem_cons

@[simp] theorem append_iff : IsAscii (cs ++ ds) ↔ IsAscii cs ∧ IsAscii ds := List.forall_mem_append

theorem of_subset (h : IsAscii cs) (hsub : ds ⊆ cs) : IsAscii ds := fun c hc => h c (hsub hc)

theorem replicate (hc : c.toNat < 0x80) (n : Nat) : IsAscii (List.replicate n c) := by
  intro d hd
  rwa [List.eq_of_mem_replicate hd]

theorem ite {p : Prop} [Decidable p] (hcs : IsAscii cs) (hds : IsAscii ds) :
    IsAscii (if p then cs else ds) := by
  split
  · exact hcs
  · exact hds

theorem toDigits (n : Nat) : IsAscii (Nat.toDigits 10 n) := by
  intro c hc
  have hdigit := Json.isDigit_toDigits hc
  have hle : c.val.toNat ≤ 57 := by simpa [Char.isDigit, UInt32.le_iff_toNat_le] using
    (Bool.and_eq_true_iff.1 hdigit).2
  exact Nat.lt_of_le_of_lt hle (by omega)

theorem hexDigits (width n : Nat) : IsAscii (Text.hexDigits width n) := by
  induction width generalizing n with
  | zero => exact nil
  | succ width ih =>
    have hdigit : ∀ d < 16, (Nat.digitChar d).toNat < 0x80 := by decide
    rw [Text.hexDigits, append_iff]
    exact ⟨ih _, cons_iff.2 ⟨hdigit _ (Nat.mod_lt n (by omega)), nil⟩⟩

theorem encodeUtf8_eq (h : IsAscii cs) :
    Text.encodeUtf8 cs = cs.map fun c => c.toNat.toUInt8 := by
  induction cs with
  | nil => rfl
  | cons c cs ih =>
    obtain ⟨hc, hcs⟩ := cons_iff.1 h
    rw [Text.encodeUtf8, List.flatMap_cons, List.map_cons, ← ih hcs, Text.encodeChar, if_pos hc]
    rfl

end IsAscii

namespace Binary64

theorem isAscii_zeros (n : Nat) : IsAscii (zeros n) := .replicate (by decide) n

theorem isAscii_positional {digits : List Char} (h : IsAscii digits) (point : Int) :
    IsAscii (positional digits point) := by
  unfold positional
  split
  · simp [isAscii_zeros, h]
  · split
    · simp [isAscii_zeros, h]
    · simp [h.of_subset (List.take_subset _ _), h.of_subset (List.drop_subset _ _)]

theorem isAscii_scientific {digits : List Char} (h : IsAscii digits) (point : Int) :
    IsAscii (scientific digits point) := by
  have hpower : IsAscii (Nat.toDigits 10 (point - 1).natAbs) := .toDigits _
  unfold scientific
  simp only [IsAscii.append_iff, IsAscii.cons_iff]
  refine ⟨?_, by decide, ?_, ?_⟩
  · split
    · decide
    · exact h
    · simpa using h
  · split <;> decide
  · exact .ite (by simpa using hpower) hpower

theorem isAscii_textChars (x : Binary64) : IsAscii x.textChars := by
  cases x with
  | nan => decide
  | infinite s => cases s <;> decide
  | finite s m e =>
    have hsign : IsAscii (if s then ['-'] else []) := .ite (by decide) (by decide)
    simp only [textChars]
    refine .ite ?_ ?_
    · simp [hsign]
    · rw [IsAscii.append_iff]
      exact ⟨hsign, .ite (isAscii_positional (.toDigits _) _) (isAscii_scientific (.toDigits _) _)⟩

end Binary64

namespace Json

theorem isAscii_unitEscape (n : Nat) : IsAscii (unitEscape n) := by
  simp [unitEscape, IsAscii.hexDigits]

theorem isAscii_escapeChar (c : Char) : IsAscii (escapeChar c) := by
  unfold escapeChar
  refine .ite (by decide) (.ite (by decide) (.ite (by decide) (.ite (by decide) (.ite (by decide)
    (.ite (by decide) (.ite (by decide) ?_))))))
  split
  · next hplain =>
    have hle : c.toNat ≤ '~'.toNat := UInt32.le_iff_toNat_le.1 hplain.2
    exact IsAscii.cons_iff.2 ⟨Nat.lt_of_le_of_lt hle (by decide), .nil⟩
  · exact .ite (isAscii_unitEscape _) (by simp [isAscii_unitEscape])

theorem isAscii_stringChars (s : String) : IsAscii (stringChars s) := by
  have hchars : IsAscii (s.toList.flatMap escapeChar) := by
    intro d hd
    obtain ⟨c, -, hd⟩ := List.mem_flatMap.1 hd
    exact isAscii_escapeChar c d hd
  simp [stringChars, hchars]

theorem isAscii_intChars (n : Int) : IsAscii (intChars n) := by
  rw [intChars, IsAscii.append_iff]
  exact ⟨.ite (by decide) (by decide), .toDigits _⟩

theorem isAscii_realChars (x : Binary64) : IsAscii (realChars x) := by
  unfold realChars
  split
  · decide
  · split <;> decide
  · exact x.isAscii_textChars

theorem isAscii_lineBreak (level : Nat) : IsAscii (lineBreak level) :=
  IsAscii.cons_iff.2 ⟨by decide, .replicate (by decide) _⟩

mutual

theorem isAscii_chars (level : Nat) : (v : Json) → IsAscii (chars level v)
  | .null => by simp [chars]
  | .bool true => by simp [chars]
  | .bool false => by simp [chars]
  | .int n => isAscii_intChars n
  | .real x => isAscii_realChars x
  | .str s => isAscii_stringChars s
  | .arr [] => by simp [chars]
  | .arr (v :: vs) => by
    simp [chars, isAscii_lineBreak, isAscii_chars (level + 1) v, isAscii_itemsChars (level + 1) vs]
  | .obj [] => by simp [chars]
  | .obj ((k, v) :: ms) => by
    simp [chars, isAscii_lineBreak, isAscii_stringChars, isAscii_chars (level + 1) v,
      isAscii_membersChars (level + 1) ms]

theorem isAscii_itemsChars (level : Nat) : (vs : List Json) → IsAscii (itemsChars level vs)
  | [] => .nil
  | v :: vs => by
    simp [itemsChars, isAscii_lineBreak, isAscii_chars level v, isAscii_itemsChars level vs]

theorem isAscii_membersChars (level : Nat) : (ms : List (String × Json)) →
    IsAscii (membersChars level ms)
  | [] => .nil
  | (k, v) :: ms => by
    simp [membersChars, isAscii_lineBreak, isAscii_stringChars, isAscii_chars level v,
      isAscii_membersChars level ms]

end

theorem isAscii_render (v : Json) : IsAscii (render v).toList := by
  rw [render, String.toList_ofList]
  exact isAscii_chars 0 v

end Json

end LeakScan
