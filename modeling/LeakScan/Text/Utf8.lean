import LeakScan.Text.Quoted

namespace LeakScan.Text

inductive Utf8Fault where
  | invalidStart
  | invalidContinuation
  | unexpectedEnd
deriving DecidableEq, Repr

/-- The first fault of a byte sequence: where it starts, the bytes it spans, and what is wrong. -/
structure Utf8Failure where
  position : Nat
  span : List UInt8
  fault : Utf8Fault
deriving DecidableEq, Repr

/-- What the first byte of a character asks for: how many bytes follow it, the bounds of the second
byte, and the bits that the first byte adds. -/
structure Utf8Lead where
  follow : Nat
  low : UInt8
  high : UInt8
  bits : Nat
deriving DecidableEq, Repr

def utf8Lead? (b : UInt8) : Option Utf8Lead :=
  if b < 0x80 then some ⟨0, 0x80, 0xBF, b.toNat⟩
  else if b < 0xC2 then none
  else if b < 0xE0 then some ⟨1, 0x80, 0xBF, b.toNat - 0xC0⟩
  else if b = 0xE0 then some ⟨2, 0xA0, 0xBF, 0⟩
  else if b = 0xED then some ⟨2, 0x80, 0x9F, 0xD⟩
  else if b < 0xF0 then some ⟨2, 0x80, 0xBF, b.toNat - 0xE0⟩
  else if b = 0xF0 then some ⟨3, 0x90, 0xBF, 0⟩
  else if b < 0xF4 then some ⟨3, 0x80, 0xBF, b.toNat - 0xF0⟩
  else if b = 0xF4 then some ⟨3, 0x80, 0x8F, 4⟩
  else none

/-- The bytes that continue a character: `follow` of them, the first between `low` and `high`. The
answer is the number that they make after `bits`, or the good ones before a fault. -/
def utf8Rest : (follow : Nat) → (low high : UInt8) → (bits : Nat) → List UInt8 →
    Except (List UInt8 × Utf8Fault) Nat
  | 0, _, _, bits, _ => .ok bits
  | _ + 1, _, _, _, [] => .error ([], .unexpectedEnd)
  | n + 1, low, high, bits, b :: s =>
    if low ≤ b ∧ b ≤ high then
      match utf8Rest n 0x80 0xBF (bits * 64 + (b.toNat - 0x80)) s with
      | .ok code => .ok code
      | .error (good, fault) => .error (b :: good, fault)
    else .error ([], .invalidContinuation)

/-- Reads characters from `position` on; the first `skip` bytes belong to a character already read.
-/
def utf8From (position : Nat) : (skip : Nat) → List UInt8 → Except Utf8Failure (List Char)
  | _, [] => .ok []
  | skip + 1, _ :: s => utf8From (position + 1) skip s
  | 0, b :: s =>
    match utf8Lead? b with
    | none => .error ⟨position, [b], .invalidStart⟩
    | some lead =>
      match utf8Rest lead.follow lead.low lead.high lead.bits s with
      | .error (good, fault) => .error ⟨position, b :: good, fault⟩
      | .ok code =>
        match utf8From (position + 1) lead.follow s with
        | .ok cs => .ok (Char.ofNat code :: cs)
        | .error e => .error e

def decodeUtf8 (bytes : List UInt8) : Except Utf8Failure (List Char) := utf8From 0 0 bytes

def encodeChar (c : Char) : List UInt8 :=
  let n := c.toNat
  if n < 0x80 then [n.toUInt8]
  else if n < 0x800 then [(0xC0 + n / 64).toUInt8, (0x80 + n % 64).toUInt8]
  else if n < 0x10000 then
    [(0xE0 + n / 4096).toUInt8, (0x80 + n / 64 % 64).toUInt8, (0x80 + n % 64).toUInt8]
  else
    [(0xF0 + n / 262144).toUInt8, (0x80 + n / 4096 % 64).toUInt8, (0x80 + n / 64 % 64).toUInt8,
      (0x80 + n % 64).toUInt8]

def encodeUtf8 (s : List Char) : List UInt8 := s.flatMap encodeChar

def Utf8Fault.message : Utf8Fault → String
  | .invalidStart => "invalid start byte"
  | .invalidContinuation => "invalid continuation byte"
  | .unexpectedEnd => "unexpected end of data"

def hexByte (b : UInt8) : String := String.ofList (hexDigits 2 b.toNat)

/-- The report of a fault: one byte is shown by its value, more by where they stand. -/
def Utf8Failure.message (e : Utf8Failure) : String :=
  match e.span with
  | [b] =>
    "'utf-8' codec can't decode byte 0x" ++ hexByte b ++ " in position " ++ toString e.position ++
      ": " ++ e.fault.message
  | _ =>
    "'utf-8' codec can't decode bytes in position " ++ toString e.position ++ "-" ++
      toString (e.position + e.span.length - 1) ++ ": " ++ e.fault.message

end LeakScan.Text
