import LeakScan.Text.Code
import LeakScan.Text.Utf8

namespace LeakScan.Text

inductive Encoding where
  | utf8
  | utf16 (bigEndian : Bool)
  | utf32 (bigEndian : Bool)
deriving DecidableEq, Repr

namespace Encoding

def guess : List UInt8 → Encoding
  | [a, b] => if a = 0 then utf16 true else if b = 0 then utf16 false else utf8
  | a :: b :: c :: d :: _ =>
    if a = 0 then (if b = 0 then utf32 true else utf16 true)
    else if b = 0 then (if c = 0 ∧ d = 0 then utf32 false else utf16 false)
    else utf8
  | _ => utf8

def numberOf (bigEndian : Bool) (bytes : List UInt8) : Nat :=
  (if bigEndian then bytes else bytes.reverse).foldl (fun n b => n * 256 + b.toNat) 0

def units16? (bigEndian : Bool) : List UInt8 → Option (List Nat)
  | [] => some []
  | [_] => none
  | a :: b :: r => (units16? bigEndian r).map (numberOf bigEndian [a, b] :: ·)

def codes32? (bigEndian : Bool) : List UInt8 → Option (List Code)
  | [] => some []
  | a :: b :: c :: d :: r =>
    let n := numberOf bigEndian [a, b, c, d]
    if n < 0x110000 then (codes32? bigEndian r).map (Code.ofNat n :: ·) else none
  | _ => none

end Encoding

def withoutMark : List Char → List Char
  | '\uFEFF' :: r => r
  | s => s

/-- The codes of a text that came as UTF-8, in the encoding that it looks like. Halves may stand
alone. -/
def reread? (s : List Char) : Option (List Code) :=
  let bytes := encodeUtf8 s
  match Encoding.guess bytes with
  | .utf8 => some (Code.ofChars (withoutMark s))
  | .utf16 bigEndian => (Encoding.units16? bigEndian bytes).map Code.ofUnits
  | .utf32 bigEndian => Encoding.codes32? bigEndian bytes

end LeakScan.Text
