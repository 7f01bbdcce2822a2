import LeakScan.Number.Reading
import LeakScan.Text.Code
import LeakScan.Text.Utf8

namespace LeakScan.Yaml

open Text (Code)

inductive Fault where
  | malformed
  /-- The text cannot be read any further, for a reason that its source knows. -/
  | unreadable
  | encoding (e : Text.Utf8Failure)
  /-- A text that is no integer in the given base. -/
  | badDigits (base : Nat) (text : List Code)
  | tooManyDigits (count : Nat)
  | badReal (text : List Code)
  /-- A power of sixty that no double comes near. -/
  | hugePower
  | badYear (year : Nat)
  | badMonth
  | badDay
  | badHour
  | badMinute
  | badSecond
  /-- A distance from universal time of a day or more. -/
  | badOffset (minutes : Int)
  | badCode
  /-- An escaped number of more than 31 bits. -/
  | hugeCode
  | unknownTruth (word : List Code)
  | emptyNumber
  | noMoment
  /-- A mapping where a date was asked for. -/
  | notText
  /-- More calls than the interpreter lets be open at once. -/
  | tooDeep
deriving DecidableEq, Repr

/-- The calls that can be open at once in the reading of a document: a thousand, but for some that are
open already. -/
def callLimit : Nat := 980

namespace Fault

/-- A span of minutes as days and seconds; the seconds are never negative, and parts that are zero
are left out. -/
def spanText (minutes : Int) : String :=
  let days := minutes.fdiv 1440
  let seconds := minutes.fmod 1440 * 60
  let parts := (if days = 0 then [] else ["days=" ++ toString days]) ++
    if seconds = 0 then [] else ["seconds=" ++ toString seconds]
  "datetime.timedelta(" ++ String.intercalate ", " parts ++ ")"

def message : Fault → String
  | malformed => "<yaml error>"
  | unreadable => "<yaml error>"
  | encoding e => e.message
  | badDigits base text =>
    "invalid literal for int() with base " ++ toString base ++ ": " ++
      String.ofList ((Code.quotedChars text).take 200)
  | tooManyDigits count => digitLimitMessage count
  | badReal text => "could not convert string to float: " ++ Code.quoted text
  | hugePower => "int too large to convert to float"
  | badYear year => "year " ++ toString year ++ " is out of range"
  | badMonth => "month must be in 1..12"
  | badDay => "day is out of range for month"
  | badHour => "hour must be in 0..23"
  | badMinute => "minute must be in 0..59"
  | badSecond => "second must be in 0..59"
  | badOffset minutes =>
    "offset must be a timedelta strictly between -timedelta(hours=24) and timedelta(hours=24), not " ++
      spanText minutes ++ "."
  | badCode => "chr() arg not in range(0x110000)"
  | hugeCode => "Python int too large to convert to C int"
  | unknownTruth word => Code.quoted word
  | emptyNumber => "string index out of range"
  | noMoment => "'NoneType' object has no attribute 'groupdict'"
  | notText => "expected string or bytes-like object, got 'list'"
  | tooDeep => "maximum recursion depth exceeded"

/-- Whether a fault belongs to the document; the others are failures of the reading itself. -/
def isReported : Fault → Bool
  | hugeCode => false
  | hugePower => false
  | unknownTruth _ => false
  | emptyNumber => false
  | noMoment => false
  | notText => false
  | tooDeep => false
  | _ => true

end Fault

end LeakScan.Yaml
