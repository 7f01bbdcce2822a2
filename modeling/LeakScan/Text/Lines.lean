
namespace LeakScan.Text

/-- The lines of a text, without the line feeds that end them; there is always at least one. -/
def lines : List Char → List (List Char)
  | [] => [[]]
  | c :: r =>
    if c = '\n' then [] :: lines r
    else match lines r with
      | l :: ls => (c :: l) :: ls
      | [] => [[c]]

def uniformLineEnds : List Char → List Char
  | [] => []
  | '\r' :: '\n' :: r => '\n' :: uniformLineEnds r
  | c :: r => (if c = '\r' then '\n' else c) :: uniformLineEnds r

def holds (found : List Char) : List Char → Bool
  | [] => found.isEmpty
  | c :: r => found.isPrefixOf (c :: r) || holds found r

def lineFrom? (found : List Char) (first : Nat) : List (List Char) → Option Nat
  | [] => none
  | l :: ls => if holds found l then some first else lineFrom? found (first + 1) ls

/-- The number of the first line that holds `found`, or 1 if no single line does. -/
def lineOf (content found : List Char) : Nat :=
  (lineFrom? found 1 (lines content)).getD 1

@[simp] theorem lines_ne_nil (s : List Char) : lines s ≠ [] := by
  cases s with
  | nil => simp [lines]
  | cons c r =>
    rw [lines]
    split
    · simp
    · split <;> simp

theorem holds_iff_infix {found s : List Char} : holds found s = true ↔ found <:+: s := by
  induction s with
  | nil => simp [holds]
  | cons c r ih => simp [holds, List.infix_cons_iff, ih, List.isPrefixOf_iff_prefix]

theorem not_mem_uniformLineEnds (s : List Char) : '\r' ∉ uniformLineEnds s := by
  fun_induction uniformLineEnds s with
  | case1 => simp
  | case2 r ih => simp [ih]
  | case3 c r h ih =>
    by_cases hc : c = '\r' <;> simp [hc, ih, Ne.symm]

theorem uniformLineEnds_eq_self {s : List Char} (hs : '\r' ∉ s) : uniformLineEnds s = s := by
  fun_induction uniformLineEnds s with
  | case1 => rfl
  | case2 r ih => simp at hs
  | case3 c r h ih =>
    rw [List.mem_cons, not_or] at hs
    rw [if_neg (Ne.symm hs.1), ih hs.2]

end LeakScan.Text
