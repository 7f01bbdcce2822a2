
namespace LeakScan

structure Date where
  year : Nat
  month : Nat
  day : Nat
deriving DecidableEq, Repr

/-- A date and time of day. `offset` is the distance from universal time in seconds; without one the
time is local to no place. -/
structure Moment where
  date : Date
  hour : Nat
  minute : Nat
  second : Nat
  micro : Nat
  offset : Option Int
deriving DecidableEq, Repr

def isLeap (year : Nat) : Bool := year % 4 = 0 && (year % 100 ≠ 0 || year % 400 = 0)

def daysInMonth (year month : Nat) : Nat :=
  match month with
  | 2 => if isLeap year then 29 else 28
  | 4 | 6 | 9 | 11 => 30
  | _ => 31

def daysBeforeMonth (year month : Nat) : Nat :=
  (List.range (month - 1)).foldl (fun days m => days + daysInMonth year (m + 1)) 0

def daysBeforeYear (year : Nat) : Nat :=
  let y := year - 1
  y * 365 + y / 4 - y / 100 + y / 400

namespace Date

def days (d : Date) : Nat := daysBeforeYear d.year + daysBeforeMonth d.year d.month + (d.day - 1)

/-- The month that holds a day of a year, and the day in it, looking from `month` on. -/
def ofDayOfYear (year : Nat) : (left : Nat) → (month : Nat) → (day : Nat) → Date
  | 0, month, day => ⟨year, month, day + 1⟩
  | left + 1, month, day =>
    if day < daysInMonth year month then ⟨year, month, day + 1⟩
    else ofDayOfYear year left (month + 1) (day - daysInMonth year month)

/-- The year that holds a day: whole cycles of 400, 100, 4 and 1 years are taken away in turn, and
the last day of a cycle belongs to its last year. -/
def yearOf (days : Nat) : Nat :=
  let n400 := days / 146097
  let r := days % 146097
  let n100 := min 3 (r / 36524)
  let r := r - n100 * 36524
  let n4 := r / 1461
  let r := r % 1461
  let n1 := min 3 (r / 365)
  400 * n400 + 100 * n100 + 4 * n4 + n1 + 1

def ofDays (days : Nat) : Date :=
  let year := yearOf days
  ofDayOfYear year 11 1 (days - daysBeforeYear year)

end Date

def epochDays : Nat := 719162

namespace Moment

def ofEpochMicros (us : Int) : Moment :=
  let total := (us + epochDays * 86400000000).toNat
  let time := total % 86400000000
  { date := Date.ofDays (total / 86400000000)
    hour := time / 3600000000
    minute := time / 60000000 % 60
    second := time / 1000000 % 60
    micro := time % 1000000
    offset := some 0 }

/-- Microseconds since the beginning of year 1 on the moment's own clock. -/
def localMicros (t : Moment) : Int :=
  ((((t.date.days * 24 + t.hour) * 60 + t.minute) * 60 + t.second) * 1000000 + t.micro : Nat)

/-- Microseconds from `s` to `t`, if both or neither know their distance from universal time. -/
def microsSince? (t s : Moment) : Option Int :=
  match t.offset, s.offset with
  | some a, some b => some (t.localMicros - a * 1000000 - (s.localMicros - b * 1000000))
  | none, none => some (t.localMicros - s.localMicros)
  | _, _ => none

end Moment

def padded (width n : Nat) : List Char :=
  let digits := Nat.toDigits 10 n
  List.replicate (width - digits.length) '0' ++ digits

namespace Date

def textChars (d : Date) : List Char :=
  padded 4 d.year ++ '-' :: padded 2 d.month ++ '-' :: padded 2 d.day

def text (d : Date) : String := String.ofList d.textChars

end Date

namespace Moment

def clockChars (t : Moment) : List Char :=
  padded 2 t.hour ++ ':' :: padded 2 t.minute ++ ':' :: padded 2 t.second

/-- A distance from universal time in hours and minutes, with the seconds if there are any. -/
def offsetChars : Option Int → List Char
  | none => []
  | some s =>
    let n := s.natAbs
    (if s < 0 then '-' else '+') :: padded 2 (n / 3600) ++ ':' :: padded 2 (n / 60 % 60) ++
      if n % 60 = 0 then [] else ':' :: padded 2 (n % 60)

def millisChars (t : Moment) : List Char :=
  t.date.textChars ++ 'T' :: t.clockChars ++ '.' :: padded 3 (t.micro / 1000) ++
    offsetChars t.offset

def exactChars (t : Moment) : List Char :=
  t.date.textChars ++ 'T' :: t.clockChars ++
    (if t.micro = 0 then [] else '.' :: padded 6 t.micro) ++ offsetChars t.offset

def exactText (t : Moment) : String := String.ofList t.exactChars

def writeZulu : List Char → List Char
  | '+' :: '0' :: '0' :: ':' :: '0' :: '0' :: r => 'Z' :: writeZulu r
  | c :: r => c :: writeZulu r
  | [] => []

def stamp (t : Moment) : String := String.ofList (writeZulu t.millisChars)

end Moment

end LeakScan
