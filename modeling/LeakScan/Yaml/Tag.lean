import LeakScan.Number.Reading

namespace LeakScan.Yaml

inductive Tag where
  | null
  | bool
  | int
  | float
  | binary
  | timestamp
  | str
  | list
  | map
  | set
  | pairs
  /-- The key under which mappings are merged in. -/
  | merge
  /-- The key of a default value. -/
  | default
  | other
deriving DecidableEq, Repr

namespace Tag

def named : List (String × Tag) :=
  [("null", null), ("bool", bool), ("int", int), ("float", float), ("binary", binary),
    ("timestamp", timestamp), ("str", str), ("seq", list), ("map", map), ("set", set),
    ("omap", pairs), ("pairs", pairs), ("merge", merge), ("value", default)]

def schema : String := "tag:yaml.org,2002:"

def ofName (name : String) : Tag :=
  ((named.find? fun e => schema ++ e.1 == name).map (·.2)).getD other

def isSign (c : Char) : Bool := c == '+' || c == '-'

def isSpacedDigit (c : Char) : Bool := c.isDigit || c == '_'

def isSpacedHex (c : Char) : Bool := (digitValue? c).isSome || c == '_'

def isSpacedOctal (c : Char) : Bool := ('0' ≤ c && c ≤ '7') || c == '_'

def isSpacedBinary (c : Char) : Bool := c == '0' || c == '1' || c == '_'

def dropSign : List Char → List Char
  | c :: r => if isSign c then r else c :: r
  | [] => []

def isDigits : List Char → Bool
  | c :: r => c.isDigit && r.all isSpacedDigit
  | [] => false

/-- One part of a number in base sixty after the first: one or two digits up to 59. -/
def isSixty : List Char → Bool
  | [a] => a.isDigit
  | [a, b] => '0' ≤ a && a ≤ '5' && b.isDigit
  | _ => false

def parts {α : Type} (isMark : α → Bool) : List α → List (List α)
  | [] => [[]]
  | c :: r =>
    match parts isMark r with
    | p :: ps => if isMark c then [] :: p :: ps else (c :: p) :: ps
    | [] => [[c]]

def isSixties (isFirst : List Char → Bool) (s : List Char) : Bool :=
  match parts (· == ':') s with
  | p :: q :: ps => isFirst p && (q :: ps).all isSixty
  | _ => false

def isWhole : List Char → Bool
  | c :: r => c.isDigit && c != '0' && r.all isSpacedDigit
  | [] => false

def isInt (s : List Char) : Bool :=
  match dropSign s with
  | ['0'] => true
  | '0' :: 'b' :: r => !r.isEmpty && r.all isSpacedBinary
  | '0' :: 'x' :: r => !r.isEmpty && r.all isSpacedHex
  | '0' :: r => r.all isSpacedOctal
  | r => isWhole r || isSixties isWhole r

def isPower : List Char → Bool
  | [] => true
  | e :: s :: d :: r => (e == 'e' || e == 'E') && isSign s && d.isDigit && r.all Char.isDigit
  | _ => false

def isPlaces (s : List Char) : Bool := isPower (s.dropWhile isSpacedDigit)

def isPointed (s : List Char) : Bool :=
  let whole := s.takeWhile isSpacedDigit
  match s.dropWhile isSpacedDigit with
  | '.' :: r => isDigits whole && isPlaces r
  | _ => false

def isPointedSixties (s : List Char) : Bool :=
  let whole := s.takeWhile (· != '.')
  match s.dropWhile (· != '.') with
  | '.' :: r => isSixties isDigits whole && r.all isSpacedDigit
  | _ => false

def isFloat (s : List Char) : Bool :=
  match s with
  | '.' :: d :: r =>
    if d.isDigit then isPlaces r else [".inf", ".Inf", ".INF", ".nan", ".NaN", ".NAN"].contains
      (String.ofList s)
  | _ =>
    let body := dropSign s
    isPointed body || isPointedSixties body || [".inf", ".Inf", ".INF"].contains (String.ofList body)

def truths : List String :=
  ["yes", "Yes", "YES", "no", "No", "NO", "true", "True", "TRUE", "false", "False", "FALSE", "on", "On",
    "ON", "off", "Off", "OFF"]

def nulls : List String := ["~", "null", "Null", "NULL"]

end Tag

end LeakScan.Yaml
