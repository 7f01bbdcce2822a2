
namespace LeakScan

inductive Binary64 where
  /-- The value `mantissa * 2 ^ exponent`, with a sign of its own for zero. -/
  | finite (negative : Bool) (mantissa : Nat) (exponent : Int)
  | infinite (negative : Bool)
  | nan
deriving DecidableEq, Repr

namespace Binary64

def minExponent : Int := -1074

def maxExponent : Int := 971

def zero (negative : Bool) : Binary64 := finite negative 0 minExponent

/-- The nearest integer to a quotient; a tie goes to the even one. -/
def roundQuotient (num den : Nat) : Nat :=
  let q := num / den
  let r := num % den
  if 2 * r < den then q
  else if den < 2 * r then q + 1
  else q + q % 2

def scaled (num den : Nat) (e : Int) : Nat × Nat :=
  (num * Nat.pow 2 (-e).toNat, den * Nat.pow 2 e.toNat)

/-- The exponent at which the mantissa of `num / den` has 53 bits, or the least exponent. -/
def exponentFor (num den : Nat) : Int :=
  let e := (num.log2 : Int) - den.log2 - 52
  let (n, d) := scaled num den e
  max minExponent (if n / d < Nat.pow 2 52 then e - 1 else e)

def ofQuotient (negative : Bool) (num den : Nat) : Binary64 :=
  if num = 0 then zero negative
  else
    let e := exponentFor num den
    let (n, d) := scaled num den e
    let m := roundQuotient n d
    let (m, e) := if m = Nat.pow 2 53 then (Nat.pow 2 52, e + 1) else (m, e)
    if maxExponent < e then infinite negative else finite negative m e

/-- The nearest value to `digits * 10 ^ power`. Powers far outside the range are settled without
computing them. -/
def ofDecimal (negative : Bool) (digits : Nat) (power : Int) : Binary64 :=
  let width := (Nat.toDigits 10 digits).length
  if digits = 0 then zero negative
  else if 400 < power + width then infinite negative
  else if power + width < -400 then zero negative
  else ofQuotient negative (digits * Nat.pow 10 power.toNat) (Nat.pow 10 (-power).toNat)

def ofInt (n : Int) : Binary64 := ofQuotient (n < 0) n.natAbs 1

def ofIntQuotient (n : Int) (den : Nat) : Binary64 := ofQuotient (n < 0) n.natAbs den

def isNegative : Binary64 → Bool
  | finite s _ _ => s
  | infinite s => s
  | nan => false

def neg : Binary64 → Binary64
  | finite s m e => finite (!s) m e
  | infinite s => infinite (!s)
  | nan => nan

def isZero : Binary64 → Bool
  | finite _ m _ => m == 0
  | _ => false

/-- The sign and size of a finite value times a power of two that makes it an integer: the pair
`(n, k)` stands for `n / 2 ^ k`. -/
def fraction (negative : Bool) (mantissa : Nat) (exponent : Int) : Int × Nat :=
  let n : Int := (mantissa * Nat.pow 2 exponent.toNat : Nat)
  (if negative then -n else n, (-exponent).toNat)

def compareInt : Binary64 → Int → Option Ordering
  | finite s m e, i =>
    let (n, k) := fraction s m e
    some (compare n (i * Nat.pow 2 k))
  | infinite true, _ => some .lt
  | infinite false, _ => some .gt
  | nan, _ => none

def compare : Binary64 → Binary64 → Option Ordering
  | nan, _ => none
  | _, nan => none
  | infinite s, infinite t => some (Ord.compare t.toNat s.toNat)
  | infinite s, _ => some (if s then .lt else .gt)
  | _, infinite s => some (if s then .gt else .lt)
  | finite s m e, finite t n f =>
    let (a, i) := fraction s m e
    let (b, j) := fraction t n f
    some (Ord.compare (a * Nat.pow 2 j) (b * Nat.pow 2 i))

def add : Binary64 → Binary64 → Binary64
  | nan, _ => nan
  | _, nan => nan
  | infinite s, infinite t => if s = t then infinite s else nan
  | infinite s, _ => infinite s
  | _, infinite s => infinite s
  | finite s m e, finite t n f =>
    let (a, i) := fraction s m e
    let (b, j) := fraction t n f
    let sum := a * Nat.pow 2 j + b * Nat.pow 2 i
    if sum = 0 then zero (s && t) else ofIntQuotient sum (Nat.pow 2 (i + j))

def scale : Binary64 → Nat → Binary64
  | finite s m e, k =>
    let (a, i) := fraction s m e
    if m = 0 then zero s else ofIntQuotient (a * k) (Nat.pow 2 i)
  | infinite s, _ => infinite s
  | nan, _ => nan

/-- The double nearest to a natural number, which is itself one; none beyond the range. -/
def wholeNear? (n : Nat) : Option Nat :=
  match ofInt n with
  | finite _ m e => some (m * Nat.pow 2 e.toNat / Nat.pow 2 (-e).toNat)
  | _ => none

def floor : Binary64 → Nat
  | finite false m e => m * Nat.pow 2 e.toNat / Nat.pow 2 (-e).toNat
  | _ => 0

end Binary64

end LeakScan
