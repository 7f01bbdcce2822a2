import LeakScan.Json.Basic
import LeakScan.Text.Code

namespace LeakScan.Json

open Text (Code)

inductive Raw where
  | null
  | bool (b : Bool)
  | int (n : Int)
  | real (x : Binary64)
  | text (s : List Code)
  | list (items : List Raw)
  | record (members : List (List Code × Raw))

namespace Raw

instance : Inhabited Raw := ⟨null⟩

def ofString (s : String) : Raw := text (Code.ofChars s.toList)

def member? (name : String) (members : List (List Code × Raw)) : Option Raw :=
  (members.reverse.find? (·.1 == Code.ofChars name.toList)).map (·.2)

def plain (s : List Code) : String := String.ofList (s.map fun c => c.char?.getD '\uFFFD')

mutual

def toJson : Raw → Json
  | null => .null
  | bool b => .bool b
  | int n => .int n
  | real x => .real x
  | text s => .str (plain s)
  | list items => .arr (itemsJson items)
  | record members => .obj (membersJson members)

def itemsJson : List Raw → List Json
  | [] => []
  | v :: vs => v.toJson :: itemsJson vs

def membersJson : List (List Code × Raw) → List (String × Json)
  | [] => []
  | (k, v) :: ms => (plain k, v.toJson) :: membersJson ms

end

mutual

def ofJson : Json → Raw
  | .null => .null
  | .bool b => .bool b
  | .int n => .int n
  | .real x => .real x
  | .str s => .ofString s
  | .arr vs => .list (ofItems vs)
  | .obj ms => .record (ofMembers ms)

def ofItems : List Json → List Raw
  | [] => []
  | v :: vs => ofJson v :: ofItems vs

def ofMembers : List (String × Json) → List (List Code × Raw)
  | [] => []
  | (k, v) :: ms => (Code.ofChars k.toList, ofJson v) :: ofMembers ms

end

mutual

def withEnding (old new : List Code) : Raw → Raw
  | text s => text (if old.isSuffixOf s then s.take (s.length - old.length) ++ new else s)
  | list items => .list (itemsWithEnding old new items)
  | record members => .record (membersWithEnding old new members)
  | v => v

def itemsWithEnding (old new : List Code) : List Raw → List Raw
  | [] => []
  | v :: vs => withEnding old new v :: itemsWithEnding old new vs

def membersWithEnding (old new : List Code) : List (List Code × Raw) → List (List Code × Raw)
  | [] => []
  | (k, v) :: ms => (k, withEnding old new v) :: membersWithEnding old new ms

end

@[simp] theorem plain_ofChars (s : List Char) : plain (Code.ofChars s) = String.ofList s := by
  simp only [plain, Code.ofChars, List.map_map]
  congr 1
  exact List.map_id s

end Raw

end LeakScan.Json
