import LeakScan.Config.Value
import LeakScan.Text.Code
import LeakScan.Yaml.Base64
import LeakScan.Yaml.Stamp
import LeakScan.Yaml.Tag

namespace LeakScan.Yaml

open Text (Code)

def withoutFinalBreak (s : List Char) : List Char :=
  if s.getLast? = some '\n' then s.dropLast else s

/-- The tag of a plain text. A line feed at the end does not count, but alone it is a text. -/
def Tag.ofPlain (s : List Char) : Tag :=
  let t := withoutFinalBreak s
  let word := String.ofList t
  if s.isEmpty then .null
  else if t.isEmpty then .str
  else if truths.contains word then .bool
  else if isFloat t then .float
  else if isInt t then .int
  else if word = "<<" then .merge
  else if nulls.contains word then .null
  else if Stamp.isPlain t then .timestamp
  else if word = "=" then .default
  else if word = "!" ∨ word = "&" ∨ word = "*" then .other
  else .str

def Tag.ofCodes (s : List Code) : Tag :=
  match Code.chars? s with
  | some cs => .ofPlain cs
  | none => .str

def withoutSpacers (s : List Code) : List Code := s.filter fun c => !c.is '_'

def isNegative (s : List Code) : Bool :=
  match s with
  | c :: _ => c.is '-'
  | [] => false

def dropSign (s : List Code) : List Code :=
  match s with
  | c :: r => if c.is '+' || c.is '-' then r else c :: r
  | [] => []

def isMargin (c : Char) : Bool := c == ' ' || ('\t' ≤ c && c ≤ '\r')

def trimmed (s : List Char) : List Char :=
  ((s.dropWhile isMargin).reverse.dropWhile isMargin).reverse

def baseLetter? (base : Nat) : Option Char :=
  if base = 2 then some 'b'
  else if base = 8 then some 'o'
  else if base = 16 then some 'x'
  else none

def dropBase (base : Nat) : List Char → List Char
  | '0' :: c :: r => if some c.toLower = baseLetter? base then r else '0' :: c :: r
  | s => s

/-- An integer in a base. Blanks around it, a sign and the announcement of the base are allowed. -/
def intOfText (base : Nat) (s : List Code) : Except Fault Int :=
  let text := trimmed (Code.asciiFrom s)
  let body := dropBase base (Tag.dropSign text)
  let count := (body.takeWhile Char.isDigit).length
  if base = 10 ∧ digitLimit < count then .error (.tooManyDigits count)
  else match natOfDigits? base body with
    | some n => .ok (if text.head? = some '-' then -(n : Int) else n)
    | none => .error (.badDigits base s)

def sixties : List Int → Int := List.foldl (fun n d => n * 60 + d) 0

def intOf (s : List Code) : Except Fault Int :=
  let text := withoutSpacers s
  let sign : Int := if isNegative text then -1 else 1
  let body := dropSign text
  match body with
  | [] => .error .emptyNumber
  | [.char '0'] => .ok 0
  | .char '0' :: .char 'b' :: r => (intOfText 2 r).map (sign * ·)
  | .char '0' :: .char 'x' :: r => (intOfText 16 r).map (sign * ·)
  | .char '0' :: _ => (intOfText 8 body).map (sign * ·)
  | _ =>
    if body.any (·.is ':') then
      ((Tag.parts (·.is ':') body).mapM (intOfText 10)).map fun ds => sign * sixties ds
    else (intOfText 10 body).map (sign * ·)

def realOfText (s : List Code) : Except Fault Binary64 :=
  match Binary64.ofText? (trimmed (Code.asciiFrom s)) with
  | some x => .ok x
  | none => .error (.badReal s)

/-- The rounded sum of digits times powers of sixty; the digit of the least power comes first. Every
power is rounded before it is used, and one beyond the range cannot be. -/
def realSixties : (power : Nat) → (sum : Binary64) → List Binary64 → Except Fault Binary64
  | _, sum, [] => .ok sum
  | power, sum, d :: ds =>
    match Binary64.wholeNear? power with
    | some p => realSixties (power * 60) (sum.add (d.scale p)) ds
    | none => .error .hugePower

def realText (s : List Code) : List Code := Code.lower (withoutSpacers s)

def realOf (s : List Code) : Except Fault Binary64 :=
  let text := realText s
  let signed (x : Binary64) : Binary64 := if isNegative text then x.neg else x
  let body := dropSign text
  if text.isEmpty then .error .emptyNumber
  else if body = Code.ofChars ".inf".toList then .ok (signed (.infinite false))
  else if body = Code.ofChars ".nan".toList then .ok .nan
  else if body.any (·.is ':') then
    match (Tag.parts (·.is ':') body).mapM realOfText with
    | .error f => .error f
    | .ok ds => (realSixties 1 (.zero false) ds.reverse).map signed
  else (realOfText body).map signed

/-- Whether a text is the usual word for what is no number. All such words stand for one value,
while other texts that are no number each have a value of their own. -/
def isCommonNan (s : List Code) : Bool := dropSign (realText s) = Code.ofChars ".nan".toList

def truthOf (s : List Code) : Except Fault Bool :=
  let word := Code.lower s
  let isWord (w : String) : Bool := word = Code.ofChars w.toList
  if ["yes", "true", "on"].any isWord then .ok true
  else if ["no", "false", "off"].any isWord then .ok false
  else .error (.unknownTruth word)

def stampOf (s : List Code) : Except Fault Value :=
  match (Code.chars? s).bind fun cs => Stamp.ofText? (withoutFinalBreak cs) with
  | none => .error .noMoment
  | some ⟨d, none⟩ =>
    match Stamp.dateFault? d with
    | some f => .error f
    | none => .ok (.date d)
  | some ⟨d, some t⟩ => (Stamp.moment d t).map .moment

def bytesOf (s : List Code) : Except Fault (List UInt8) :=
  match (Code.chars? s).bind Base64.decode? with
  | some bytes => .ok bytes
  | none => .error .malformed

def valueOf (tag : Tag) (s : List Code) : Except Fault Value :=
  match tag with
  | .null => .ok .null
  | .bool => (truthOf s).map .bool
  | .int => (intOf s).map .int
  | .float => (realOf s).map .real
  | .str => .ok (.str (Code.standIn s))
  | .timestamp => stampOf s
  | .binary => (bytesOf s).map .bytes
  | _ => .error .malformed

end LeakScan.Yaml
