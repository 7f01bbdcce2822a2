import LeakScan.Json.Basic
import LeakScan.Number.Shortest
import LeakScan.Text.Quoted

namespace LeakScan.Json

def unitEscape (n : Nat) : List Char := '\\' :: 'u' :: Text.hexDigits 4 n

def escapeChar (c : Char) : List Char :=
  if c = '"' then ['\\', '"']
  else if c = '\\' then ['\\', '\\']
  else if c = '\n' then ['\\', 'n']
  else if c = '\r' then ['\\', 'r']
  else if c = '\t' then ['\\', 't']
  else if c = '\x0c' then ['\\', 'f']
  else if c = '\x08' then ['\\', 'b']
  else if ' ' ≤ c ∧ c ≤ '~' then [c]
  else if c.toNat < 0x10000 then unitEscape c.toNat
  else
    unitEscape (0xD800 + (c.toNat - 0x10000) / 0x400) ++
      unitEscape (0xDC00 + (c.toNat - 0x10000) % 0x400)

def stringChars (s : String) : List Char := '"' :: s.toList.flatMap escapeChar ++ ['"']

def intChars (n : Int) : List Char :=
  (if n < 0 then ['-'] else []) ++ Nat.toDigits 10 n.natAbs

def realChars : Binary64 → List Char
  | .nan => "NaN".toList
  | .infinite s => (if s then "-Infinity" else "Infinity").toList
  | x => x.textChars

def lineBreak (level : Nat) : List Char := '\n' :: List.replicate (2 * level) ' '

mutual

def chars (level : Nat) : Json → List Char
  | null => "null".toList
  | bool true => "true".toList
  | bool false => "false".toList
  | int n => intChars n
  | real x => realChars x
  | str s => stringChars s
  | arr [] => "[]".toList
  | arr (v :: vs) =>
    '[' :: lineBreak (level + 1) ++ chars (level + 1) v ++ itemsChars (level + 1) vs ++
      lineBreak level ++ [']']
  | obj [] => ['\x7b', '\x7d']
  | obj ((k, v) :: ms) =>
    '\x7b' :: lineBreak (level + 1) ++ stringChars k ++ ": ".toList ++ chars (level + 1) v ++
      membersChars (level + 1) ms ++ lineBreak level ++ ['\x7d']

def itemsChars (level : Nat) : List Json → List Char
  | [] => []
  | v :: vs => ',' :: lineBreak level ++ chars level v ++ itemsChars level vs

def membersChars (level : Nat) : List (String × Json) → List Char
  | [] => []
  | (k, v) :: ms =>
    ',' :: lineBreak level ++ stringChars k ++ ": ".toList ++ chars level v ++
      membersChars level ms

end

/-- The text of a value, without a line feed at its end. -/
def render (v : Json) : String := String.ofList (chars 0 v)

end LeakScan.Json
