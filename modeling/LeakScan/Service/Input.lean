import LeakScan.Json.Parser
import LeakScan.Text.Encoding

namespace LeakScan.Service

open Json (Raw)
open Text (Code)

inductive BodyFault where
  | missing
  /-- The bytes are no text, or a value is beyond the limits. -/
  | unreadable
  | notJson
  | notObject (input : Raw)
  | notText (field : String) (input : Raw)

namespace BodyFault

def ofReading : Json.ReadFault → BodyFault
  | .malformed => notJson
  | .tooManyDigits => unreadable
  | .tooDeep => unreadable

end BodyFault

def bodyLimits : Json.Limits := ⟨some digitLimit, some 960⟩

def membersOf (body : Option String) : Except BodyFault (List (List Code × Raw)) :=
  match body with
  | none => .error .missing
  | some text =>
    if text.isEmpty then .error .missing
    else match Text.reread? text.toList with
      | none => .error .unreadable
      | some codes =>
        match Json.read bodyLimits codes with
        | .error e => .error (.ofReading e)
        | .ok (.record members) => .ok members
        | .ok input => .error (.notObject input)

def directoryOf (body : Option String) : Except BodyFault String :=
  match membersOf body with
  | .error e => .error e
  | .ok members =>
    match Raw.member? "directory" members with
    | none => .ok "."
    | some (.text s) => .ok (Code.standIn s)
    | some input => .error (.notText "directory" input)

/-- The address of the page to scan as it was sent. It may be missing or null. -/
def urlOf (body : Option String) : Except BodyFault (Option (List Code)) :=
  match membersOf body with
  | .error e => .error e
  | .ok members =>
    match Raw.member? "url" members with
    | none => .ok none
    | some .null => .ok none
    | some (.text s) => .ok (some s)
    | some input => .error (.notText "url" input)

end LeakScan.Service
