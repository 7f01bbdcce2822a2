import LeakScan.Text.Blank
import LeakScan.Text.Digits
import LeakScan.Text.Lower
import LeakScan.Text.Quoted

namespace LeakScan.Text

inductive Code where
  | char (c : Char)
  /-- One half of a pair, with its number between 0xD800 and 0xDFFF. -/
  | half (n : Nat)
deriving DecidableEq, Repr

namespace Code

instance : Inhabited Code := ⟨char ' '⟩

def isHalf : Code → Bool
  | half _ => true
  | char _ => false

def char? : Code → Option Char
  | char c => some c
  | half _ => none

def ofNat (n : Nat) : Code :=
  if 0xD800 ≤ n ∧ n < 0xE000 then half n else char (Char.ofNat n)

def toNat : Code → Nat
  | char c => c.toNat
  | half n => n

def is (a : Char) : Code → Bool
  | char c => c == a
  | half _ => false

def paired? (high low : Nat) : Option Char :=
  if 0xD800 ≤ high ∧ high < 0xDC00 ∧ 0xDC00 ≤ low ∧ low < 0xE000 then
    some (Char.ofNat (0x10000 + (high - 0xD800) * 0x400 + (low - 0xDC00)))
  else none

/-- Units of sixteen bits as codes. A high half and the low one after it are one character. -/
def ofUnits : List Nat → List Code
  | [] => []
  | [n] => [ofNat n]
  | high :: low :: r =>
    match paired? high low with
    | some c => char c :: ofUnits r
    | none => ofNat high :: ofUnits (low :: r)

def ofChars (s : List Char) : List Code := s.map char

def chars? (s : List Code) : Option (List Char) := s.mapM char?

/-- A text to work with in place of codes. A half becomes NUL, which stands in no name of a file. -/
def standIn (s : List Code) : String :=
  String.ofList (s.map fun c => c.char?.getD '\x00')

def quotedOne (quote : Char) : Code → List Char
  | char c => quoteChar quote c
  | half n => '\\' :: 'u' :: hexDigits 4 n

def quotedChars (s : List Code) : List Char :=
  let quote := quoteFor (s.filterMap char?)
  quote :: s.flatMap (quotedOne quote) ++ [quote]

def quoted (s : List Code) : String := String.ofList (quotedChars s)

/-- The report of a text that cannot be written because of halves: of the first run of them. -/
def halvesMessage? (s : List Code) : Option String :=
  let start := (s.takeWhile fun c => !c.isHalf).length
  match (s.drop start).takeWhile isHalf with
  | [] => none
  | [c] =>
    some ("'utf-8' codec can't encode character '" ++ String.ofList (quotedOne '"' c) ++
      "' in position " ++ toString start ++ ": surrogates not allowed")
  | run =>
    some ("'utf-8' codec can't encode characters in position " ++ toString start ++ "-" ++
      toString (start + run.length - 1) ++ ": surrogates not allowed")

def leading : List Code → List Char
  | char c :: r => c :: leading r
  | _ => []

def lowerAfter (before : List Char) : List Code → List Code
  | [] => []
  | half n :: r => half n :: lowerAfter [] r
  | char c :: r => ofChars (lowered before c (leading r)) ++ lowerAfter (c :: before) r

def lower (s : List Code) : List Code := lowerAfter [] s

/-- The text of a number in ASCII. Digits and blanks of all scripts have their places; at anything
else beyond ASCII the text breaks off with a mark that no number holds. -/
def asciiFrom : List Code → List Char
  | [] => []
  | half _ :: _ => ['?']
  | char c :: r =>
    if c.toNat < 127 then c :: asciiFrom r
    else if isBlank c then ' ' :: asciiFrom r
    else match decimalValue? c with
      | some d => Nat.digitChar d :: asciiFrom r
      | none => ['?']

@[simp] theorem chars?_ofChars (s : List Char) : chars? (ofChars s) = some s := by
  induction s with
  | nil => rfl
  | cons c r ih =>
    simp only [chars?, ofChars] at ih ⊢
    simp [char?, ih]

end Code

end LeakScan.Text
