import LeakScan.Number.Shortest

namespace LeakScan

inductive Risk where
  | low
  | medium
  | high
deriving DecidableEq, Repr

namespace Risk

def mediumLimit : Nat := 3

def ofCount (n : Nat) : Risk :=
  if n = 0 then low else if n ≤ mediumLimit then medium else high

def text : Risk → String
  | low => "LOW"
  | medium => "MEDIUM"
  | high => "HIGH"

def rank : Risk → Nat
  | low => 0
  | medium => 1
  | high => 2

structure NegativeCount where
  count : String
deriving DecidableEq, Repr

def NegativeCount.message (e : NegativeCount) : String :=
  "Issue count cannot be negative: " ++ e.count

def ofInt (n : Int) : Except NegativeCount Risk :=
  if n < 0 then .error ⟨toString n⟩ else .ok (ofCount n.toNat)

def ofReal (x : Binary64) : Except NegativeCount Risk :=
  if x.compareInt 0 = some .lt then .error ⟨x.text⟩
  else if x.compareInt 0 = some .eq then .ok low
  else match x.compareInt mediumLimit with
    | some .lt => .ok medium
    | some .eq => .ok medium
    | _ => .ok high

theorem ofCount_eq_low_iff {n : Nat} : ofCount n = low ↔ n = 0 := by
  unfold ofCount
  split
  · simp [*]
  · split <;> simp [*]

theorem ofCount_eq_high_iff {n : Nat} : ofCount n = high ↔ mediumLimit < n := by
  unfold ofCount
  split
  · simp [*]
  · split
    · next h => simp [Nat.not_lt.2 h]
    · next h => simp [Nat.lt_of_not_le h]

theorem rank_ofCount (n : Nat) :
    (ofCount n).rank = if n = 0 then 0 else if n ≤ mediumLimit then 1 else 2 := by
  unfold ofCount
  split
  · rfl
  · split <;> rfl

theorem rank_ofCount_le {m n : Nat} (h : m ≤ n) : (ofCount m).rank ≤ (ofCount n).rank := by
  simp only [rank_ofCount, mediumLimit]
  grind

end Risk

end LeakScan
