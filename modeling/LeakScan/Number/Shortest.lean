import LeakScan.Number.Binary64

namespace LeakScan.Binary64

/-- The values that round to `mantissa * 2 ^ exponent`, as bounds over one denominator. The bounds
themselves belong to them if the mantissa is even. -/
structure Interval where
  low : Nat
  value : Nat
  high : Nat
  den : Nat
  closed : Bool
deriving DecidableEq, Repr

def interval (mantissa : Nat) (exponent : Int) : Interval :=
  let below := if mantissa = Nat.pow 2 52 ∧ minExponent < exponent then 1 else 2
  let scale := Nat.pow 2 exponent.toNat
  { low := (4 * mantissa - below) * scale
    value := 4 * mantissa * scale
    high := (4 * mantissa + 2) * scale
    den := 4 * Nat.pow 2 (-exponent).toNat
    closed := mantissa % 2 = 0 }

def Interval.has (i : Interval) (num den : Nat) : Bool :=
  if i.closed then i.low * den ≤ num * i.den && num * i.den ≤ i.high * den
  else i.low * den < num * i.den && num * i.den < i.high * den

/-- The number of digits before the point of `num / den`, which is negative for small values. -/
def decimalPoint (num den : Nat) : Int :=
  let up := (List.range 400).find? fun (k : Nat) => num < den * Nat.pow 10 k
  match up with
  | some 0 =>
    match (List.range 400).find? fun (k : Nat) => den ≤ num * Nat.pow 10 (k + 1) with
    | some k => -(k : Int)
    | none => 0
  | some k => k
  | none => 0

/-- The two neighbours of the value on the grid of steps `10 ^ power`, the nearer one first; a tie
prefers the even one. -/
def neighbours (i : Interval) (power : Int) : List Nat :=
  let num := i.value * Nat.pow 10 (-power).toNat
  let den := i.den * Nat.pow 10 power.toNat
  let c := num / den
  let r := num % den
  if r = 0 then [c]
  else if 2 * r < den ∨ (2 * r = den ∧ c % 2 = 0) then [c, c + 1]
  else [c + 1, c]

/-- The shortest digits of a positive value and the place of its point, trying `count` digits and
then more. -/
def shortestFrom (i : Interval) (point : Int) : (tries : Nat) → (count : Nat) → Nat × Int
  | 0, count => ((neighbours i (point - count)).headD 0, point - count)
  | tries + 1, count =>
    let power := point - count
    let hit := (neighbours i power).find? fun c =>
      i.has (c * Nat.pow 10 power.toNat) (Nat.pow 10 (-power).toNat)
    match hit with
    | some c => (c, power)
    | none => shortestFrom i point tries (count + 1)

def trimZeros : (fuel : Nat) → Nat → Int → Nat × Int
  | 0, digits, power => (digits, power)
  | fuel + 1, digits, power =>
    if digits ≠ 0 ∧ digits % 10 = 0 then trimZeros fuel (digits / 10) (power + 1)
    else (digits, power)

/-- The shortest digits `d` and power `p` with `d * 10 ^ p` reading back as the value. -/
def shortest (mantissa : Nat) (exponent : Int) : Nat × Int :=
  let i := interval mantissa exponent
  let (d, p) := shortestFrom i (decimalPoint i.value i.den) 16 1
  trimZeros 20 d p

def zeros (n : Nat) : List Char := List.replicate n '0'

def positional (digits : List Char) (point : Int) : List Char :=
  if point ≤ 0 then '0' :: '.' :: zeros (-point).toNat ++ digits
  else if (digits.length : Int) ≤ point then
    digits ++ zeros (point.toNat - digits.length) ++ ['.', '0']
  else digits.take point.toNat ++ '.' :: digits.drop point.toNat

def scientific (digits : List Char) (point : Int) : List Char :=
  let e := point - 1
  let power := Nat.toDigits 10 e.natAbs
  let power := if power.length < 2 then '0' :: power else power
  let mantissa :=
    match digits with
    | [] => ['0']
    | [d] => [d]
    | d :: ds => d :: '.' :: ds
  mantissa ++ 'e' :: (if e < 0 then '-' else '+') :: power

def textChars : Binary64 → List Char
  | nan => ['n', 'a', 'n']
  | infinite s => (if s then ['-'] else []) ++ ['i', 'n', 'f']
  | finite s m e =>
    let sign := if s then ['-'] else []
    if m = 0 then sign ++ ['0', '.', '0']
    else
      let (d, p) := shortest m e
      let digits := Nat.toDigits 10 d
      let point := p + digits.length
      sign ++ if -4 < point ∧ point ≤ 16 then positional digits point else scientific digits point

def text (x : Binary64) : String := String.ofList x.textChars

/-- Two places after the point, rounded to the nearest and a tie to the even digit. -/
def hundredths : Binary64 → String
  | nan => "nan"
  | infinite s => if s then "-inf" else "inf"
  | finite s m e =>
    let q := roundQuotient (m * 100 * Nat.pow 2 e.toNat) (Nat.pow 2 (-e).toNat)
    let digits := Nat.toDigits 10 q
    let digits := zeros (3 - digits.length) ++ digits
    let whole := digits.take (digits.length - 2)
    let sign := if s then ['-'] else []
    String.ofList (sign ++ whole ++ '.' :: digits.drop (digits.length - 2))

end LeakScan.Binary64
