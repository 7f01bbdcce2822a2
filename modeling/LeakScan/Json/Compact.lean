import LeakScan.Json.Printer
import LeakScan.Json.Raw

namespace LeakScan.Json

open Text (Code)

def shortForm? (c : Char) : Option Char :=
  match c with
  | '\n' => some 'n'
  | '\r' => some 'r'
  | '\t' => some 't'
  | '\x0c' => some 'f'
  | '\x08' => some 'b'
  | '"' => some '"'
  | '\\' => some '\\'
  | _ => none

namespace Raw

def compactCode (c : Code) : List Code :=
  match c.char?.bind shortForm? with
  | some e => Code.ofChars ['\\', e]
  | none => if c.toNat < 0x20 then Code.ofChars (unitEscape c.toNat) else [c]

def compactText (s : List Code) : List Code :=
  .char '"' :: s.flatMap compactCode ++ [.char '"']

mutual

def compact : Raw → List Code
  | null => Code.ofChars "null".toList
  | bool true => Code.ofChars "true".toList
  | bool false => Code.ofChars "false".toList
  | int n => Code.ofChars (intChars n)
  | real x => Code.ofChars (realChars x)
  | text s => compactText s
  | list [] => Code.ofChars "[]".toList
  | list (v :: vs) => .char '[' :: compact v ++ compactItems vs ++ [.char ']']
  | record [] => Code.ofChars ['\x7b', '\x7d']
  | record ((k, v) :: ms) =>
    .char '\x7b' :: compactText k ++ .char ':' :: compact v ++ compactMembers ms ++ [.char '\x7d']

def compactItems : List Raw → List Code
  | [] => []
  | v :: vs => .char ',' :: compact v ++ compactItems vs

def compactMembers : List (List Code × Raw) → List Code
  | [] => []
  | (k, v) :: ms => .char ',' :: compactText k ++ .char ':' :: compact v ++ compactMembers ms

end

mutual

def isFinite : Raw → Bool
  | real .nan => false
  | real (.infinite _) => false
  | list items => areFinite items
  | record members => areFiniteMembers members
  | _ => true

def areFinite : List Raw → Bool
  | [] => true
  | v :: vs => isFinite v && areFinite vs

def areFiniteMembers : List (List Code × Raw) → Bool
  | [] => true
  | (_, v) :: ms => isFinite v && areFiniteMembers ms

end

end Raw

end LeakScan.Json
