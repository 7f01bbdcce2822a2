import LeakScan.Json.Compact
import LeakScan.Service.Input

namespace LeakScan.Service

open Json (Raw)
open Text (Code)

def setMember (k : List Code) (v : Raw) : List (List Code × Raw) → List (List Code × Raw)
  | [] => [(k, v)]
  | m :: ms => if m.1 = k then (k, v) :: ms else m :: setMember k v ms

def hiddenStart : List Code := Code.ofChars "_sa".toList

/-- The members of an object, each name once and with its last value, without the hidden ones. -/
def shownMembers (members : List (List Code × Raw)) : List (List Code × Raw) :=
  (members.foldl (fun ms m => setMember m.1 m.2 ms) []).filter fun m => !hiddenStart.isPrefixOf m.1

mutual

def shown : Raw → Raw
  | .list items => .list (shownItems items)
  | .record members => .record (shownMembers (shownValues members))
  | v => v

def shownItems : List Raw → List Raw
  | [] => []
  | v :: vs => shown v :: shownItems vs

def shownValues : List (List Code × Raw) → List (List Code × Raw)
  | [] => []
  | (k, v) :: ms => (k, shown v) :: shownValues ms

end

def hindrance? (v : Raw) : Option String :=
  if v.isFinite then Code.halvesMessage? v.compact
  else some "Out of range float values are not JSON compliant"

structure Refusal where
  kind : String
  place : List String
  words : String
  input : Raw

namespace Refusal

def toRaw (r : Refusal) : Raw :=
  .record [(Code.ofChars "detail".toList, .list [.record [
    (Code.ofChars "type".toList, .ofString r.kind),
    (Code.ofChars "loc".toList, .list (r.place.map .ofString)),
    (Code.ofChars "msg".toList, .ofString r.words),
    (Code.ofChars "input".toList, shown r.input)]])]

end Refusal

/-- The refusal of a body. One that is no text at all has none. -/
def BodyFault.refusal? : BodyFault → Option Refusal
  | missing => some ⟨"missing", ["body"], "Field required", .null⟩
  | unreadable => none
  | notJson => some ⟨"json_invalid", ["body"], "JSON decode error", .record []⟩
  | notObject input => some ⟨"model_attributes_type", ["body"],
      "Input should be a valid dictionary or object to extract fields from", input⟩
  | notText field input =>
    some ⟨"string_type", ["body", field], "Input should be a valid string", input⟩

end LeakScan.Service
