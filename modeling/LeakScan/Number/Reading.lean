import LeakScan.Number.Binary64

namespace LeakScan

def digitValue? (c : Char) : Option Nat :=
  if c.isDigit then some (c.toNat - '0'.toNat)
  else if 'a' ≤ c ∧ c ≤ 'f' then some (c.toNat - 'a'.toNat + 10)
  else if 'A' ≤ c ∧ c ≤ 'F' then some (c.toNat - 'A'.toNat + 10)
  else none

def digitsAfter (base value : Nat) : List Char → Option Nat
  | [] => some value
  | c :: r =>
    match digitValue? c with
    | some d => if d < base then digitsAfter base (value * base + d) r else none
    | none => none

def natOfDigits? (base : Nat) : List Char → Option Nat
  | [] => none
  | c :: r => digitsAfter base 0 (c :: r)

def intOfDigits? : List Char → Option Int
  | '-' :: r => (natOfDigits? 10 r).map fun n => -(n : Int)
  | '+' :: r => (natOfDigits? 10 r).map fun n => (n : Int)
  | r => (natOfDigits? 10 r).map fun n => (n : Int)

def digitLimit : Nat := 4300

def digitLimitMessage (count : Nat) : String :=
  "Exceeds the limit (4300 digits) for integer string conversion: value has " ++ toString count ++
    " digits; use sys.set_int_max_str_digits() to increase the limit"

namespace Binary64

/-- The parts of a decimal text: digits before the point, digits after it, and the exponent. -/
structure DecimalParts where
  whole : List Char
  places : List Char
  power : Int
deriving DecidableEq, Repr

def powerOf? : List Char → Option Int
  | [] => some 0
  | c :: r => if c = 'e' ∨ c = 'E' then intOfDigits? r else none

def decimalParts? (s : List Char) : Option DecimalParts :=
  let whole := s.takeWhile Char.isDigit
  match s.dropWhile Char.isDigit with
  | '.' :: r =>
    let places := r.takeWhile Char.isDigit
    if whole.isEmpty && places.isEmpty then none
    else (powerOf? (r.dropWhile Char.isDigit)).map fun p => ⟨whole, places, p⟩
  | r => if whole.isEmpty then none else (powerOf? r).map fun p => ⟨whole, [], p⟩

def signOf : List Char → Bool × List Char
  | '-' :: r => (true, r)
  | '+' :: r => (false, r)
  | r => (false, r)

/-- The nearest value to a decimal text; the words for infinity and no number are known too. -/
def ofText? (s : List Char) : Option Binary64 :=
  let (negative, body) := signOf s
  let name := String.ofList (body.map Char.toLower)
  if name = "inf" ∨ name = "infinity" then some (infinite negative)
  else if name = "nan" then some nan
  else match decimalParts? body with
    | none => none
    | some parts =>
      match digitsAfter 10 0 (parts.whole ++ parts.places) with
      | none => none
      | some digits => some (ofDecimal negative digits (parts.power - parts.places.length))

end Binary64

end LeakScan
