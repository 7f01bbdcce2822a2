import LeakScan.Number.Reading
import LeakScan.Time.Moment
import LeakScan.Yaml.Cursor
import LeakScan.Yaml.Fault

namespace LeakScan.Yaml

inductive Zone where
  | none
  | universal
  | distance (minutes : Int)
deriving DecidableEq, Repr

structure TimeOfDay where
  hour : Nat
  minute : Nat
  second : Nat
  micro : Nat
  zone : Zone
deriving DecidableEq, Repr

structure Stamp where
  date : Date
  time : Option TimeOfDay
deriving DecidableEq, Repr

namespace Stamp

def digits? (n : Nat) (s : List Char) : Option (Nat × List Char) :=
  let cs := s.take n
  if cs.length = n ∧ cs.all Char.isDigit then (natOfDigits? 10 cs).map fun k => (k, s.drop n) else none

def shortDigits? (s : List Char) : Option (Nat × List Char) := (digits? 2 s).or (digits? 1 s)

def after? (mark : Char) : List Char → Option (List Char)
  | c :: r => if c == mark then some r else none
  | [] => none

/-- The number of microseconds that the digits after the point stand for, the seventh and later ones
cut off. -/
def microsOf (digits : List Char) : Nat :=
  let cs := digits.take 6
  (digitsAfter 10 0 (cs ++ List.replicate (6 - cs.length) '0')).getD 0

def fraction (s : List Char) : Nat × List Char :=
  match s with
  | '.' :: r => (microsOf (r.takeWhile Char.isDigit), r.dropWhile Char.isDigit)
  | _ => (0, s)

def distance? (s : List Char) : Option Nat :=
  match shortDigits? s with
  | some (h, []) => some (h * 60)
  | some (h, ':' :: r) =>
    match digits? 2 r with
    | some (m, []) => some (h * 60 + m)
    | _ => none
  | _ => none

def zone? (s : List Char) : Option Zone :=
  if s.isEmpty then some .none
  else match s.dropWhile isSpace with
    | ['Z'] => some .universal
    | '+' :: r => (distance? r).map fun n => .distance n
    | '-' :: r => (distance? r).map fun n => .distance (-n)
    | _ => none

def time? (s : List Char) : Option TimeOfDay := do
  let (hour, s) ← shortDigits? s
  let (minute, s) ← digits? 2 (← after? ':' s)
  let (second, s) ← digits? 2 (← after? ':' s)
  let (micro, s) := fraction s
  let zone ← zone? s
  return ⟨hour, minute, second, micro, zone⟩

def timePart? (s : List Char) : Option (Option TimeOfDay) :=
  match s with
  | [] => some none
  | c :: r =>
    if c == 'T' || c == 't' then (time? r).map some
    else if isSpace c then (time? (r.dropWhile isSpace)).map some
    else none

def ofText? (s : List Char) : Option Stamp := do
  let (year, s) ← digits? 4 s
  let (month, s) ← shortDigits? (← after? '-' s)
  let (day, s) ← shortDigits? (← after? '-' s)
  let time ← timePart? s
  return ⟨⟨year, month, day⟩, time⟩

/-- Whether a plain scalar reads as a stamp: a date alone needs two digits for month and day. -/
def isPlain (s : List Char) : Bool :=
  match ofText? s with
  | some ⟨_, some _⟩ => true
  | some ⟨_, none⟩ => s.length == 10
  | none => false

def dateFault? (d : Date) : Option Fault :=
  if d.year = 0 then some (.badYear d.year)
  else if d.month = 0 ∨ 12 < d.month then some .badMonth
  else if d.day = 0 ∨ daysInMonth d.year d.month < d.day then some .badDay
  else none

def timeFault? (t : TimeOfDay) : Option Fault :=
  if 23 < t.hour then some .badHour
  else if 59 < t.minute then some .badMinute
  else if 59 < t.second then some .badSecond
  else none

/-- The distance from universal time in seconds; a day or more is refused. -/
def offset : Zone → Except Fault (Option Int)
  | .none => .ok none
  | .universal => .ok (some 0)
  | .distance minutes =>
    if minutes.natAbs < 1440 then .ok (some (minutes * 60)) else .error (.badOffset minutes)

/-- The moment that numbers stand for. The zone is checked first, then the date and the time. -/
def moment (d : Date) (t : TimeOfDay) : Except Fault Moment :=
  match offset t.zone with
  | .error f => .error f
  | .ok offset =>
    match (dateFault? d).or (timeFault? t) with
    | some f => .error f
    | none => .ok ⟨d, t.hour, t.minute, t.second, t.micro, offset⟩

end Stamp

end LeakScan.Yaml
