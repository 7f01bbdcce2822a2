import LeakScan.Number.Shortest
import LeakScan.Time.Moment

namespace LeakScan

inductive Value where
  | null
  | bool (b : Bool)
  | int (n : Int)
  | real (x : Binary64)
  | str (s : String)
  | bytes (b : List UInt8)
  | date (d : Date)
  | moment (t : Moment)
  | list (items : List Value)
  | set (items : List Value)
  | map (entries : List (Value × Value))
  /-- A collection met inside itself. -/
  | enclosing

instance : Inhabited Value := ⟨.null⟩

namespace Value

def truthy : Value → Bool
  | null => false
  | bool b => b
  | int n => n != 0
  | real x => !x.isZero
  | str s => !s.isEmpty
  | bytes b => !b.isEmpty
  | date _ => true
  | moment _ => true
  | list items => !items.isEmpty
  | set items => !items.isEmpty
  | map entries => !entries.isEmpty
  | enclosing => true

def kind : Value → String
  | null => "NoneType"
  | bool _ => "bool"
  | int _ => "int"
  | real _ => "float"
  | str _ => "str"
  | bytes _ => "bytes"
  | date _ => "datetime.date"
  | moment _ => "datetime.datetime"
  | list _ => "list"
  | set _ => "set"
  | map _ => "dict"
  | enclosing => "list"

def isKey : Value → Bool
  | list _ => false
  | set _ => false
  | map _ => false
  | enclosing => false
  | _ => true

def str? : Value → Option String
  | str s => some s
  | _ => none

def number? : Value → Option (Int ⊕ Binary64)
  | bool b => some (.inl b.toInt)
  | int n => some (.inl n)
  | real x => some (.inr x)
  | _ => none

/-- Whether two keys are one. Numbers are compared by their value, whatever their kind, and moments
with a known distance from universal time as instants. What is no number is one key with itself. -/
def sameKey : Value → Value → Bool
  | null, null => true
  | str s, str t => s == t
  | bytes a, bytes b => a == b
  | date d, date e => d == e
  | moment t, moment u => t.microsSince? u == some 0
  | real .nan, real .nan => true
  | a, b =>
    match a.number?, b.number? with
    | some (.inl m), some (.inl n) => m == n
    | some (.inl m), some (.inr x) => x.compareInt m == some .eq
    | some (.inr x), some (.inl m) => x.compareInt m == some .eq
    | some (.inr x), some (.inr y) => x.compare y == some .eq
    | _, _ => false

def text : Value → String
  | int n => toString n
  | real x => x.text
  | str s => s
  | bool b => if b then "True" else "False"
  | null => "None"
  | v => v.kind

def setKey (entries : List (Value × Value)) (key value : Value) : List (Value × Value) :=
  match entries with
  | [] => [(key, value)]
  | (k, v) :: rest =>
    if k.sameKey key then (k, value) :: rest else (k, v) :: setKey rest key value

def setMember (items : List Value) (v : Value) : List Value :=
  if items.any (·.sameKey v) then items else items ++ [v]

end Value

end LeakScan
