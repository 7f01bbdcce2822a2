
namespace LeakScan.Yaml.Base64

def alphabet : List Char := "ABCDEFGHIJKLMNOPQRSTUVWXYZabcdefghijklmnopqrstuvwxyz0123456789+/".toList

def bits? (c : Char) : Option Nat := alphabet.findIdx? (· == c)

/-- The characters read since the last whole group of four, as what they leave for the next byte. -/
inductive Group where
  | empty
  | one (left : Nat)
  | two (left : Nat)
  | three (left : Nat)

/-- Reads one more character: the byte that it completes, and the new state of the group. -/
def Group.next : Group → (bits : Nat) → Option Nat × Group
  | empty, n => (none, one n)
  | one l, n => (some (l * 4 + n / 16), two (n % 16))
  | two l, n => (some (l * 16 + n / 4), three (n % 4))
  | three l, n => (some (l * 64 + n), empty)

/-- How many marks of padding complete a group; a shorter one cannot be completed. -/
def Group.missing? : Group → Option Nat
  | two _ => some 2
  | three _ => some 1
  | _ => none

/-- The bytes of a text, or nothing if its last group is cut off. `pads` counts the marks of padding
just read. -/
def bytesFrom : Group → (pads : Nat) → List Char → Option (List UInt8)
  | .empty, _, [] => some []
  | _, _, [] => none
  | g, pads, c :: r =>
    if c == '=' then
      match g.missing? with
      | some n => if n ≤ pads + 1 then some [] else bytesFrom g (pads + 1) r
      | none => bytesFrom g pads r
    else match bits? c with
      | none => bytesFrom g pads r
      | some n =>
        match g.next n with
        | (some b, g) => (bytesFrom g 0 r).map (b.toUInt8 :: ·)
        | (none, g) => bytesFrom g 0 r

def decode? (s : List Char) : Option (List UInt8) :=
  if s.all (·.toNat < 128) then bytesFrom .empty 0 s else none

end LeakScan.Yaml.Base64
