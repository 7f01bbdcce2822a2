import LeakScan.Catalog
import LeakScan.Config.Value
import LeakScan.Text.Lower

namespace LeakScan

structure Config where
  entries : List (Value × Value)

namespace Config

def get? (c : Config) (key : String) : Option Value :=
  (c.entries.find? fun e => e.1.sameKey (.str key)).map (·.2)

def set (c : Config) (key : String) (value : Value) : Config :=
  ⟨Value.setKey c.entries (.str key) value⟩

def setDefault (c : Config) (key : String) (value : Value) : Config :=
  if (c.get? key).isSome then c else ⟨c.entries ++ [(.str key, value)]⟩

def defaultSkipDirs : List String := ["node_modules", ".git", "dist", "coverage", ".vite-cache"]

def defaultSkipExtensions : List String :=
  [".jpg", ".png", ".gif", ".pdf", ".zip", ".svg", ".ico", ".woff", ".woff2", ".ttf", ".eot"]

def strings (ss : List String) : Value := .list (ss.map .str)

def defaultTimeout : Value := .real (.ofInt 30)

/-- The known keys with the values they have by default. -/
def defaultEntries : List (String × Value) :=
  [("skip_dirs", strings defaultSkipDirs), ("skip_extensions", strings defaultSkipExtensions),
    ("broad_patterns", .bool true), ("request_timeout", defaultTimeout),
    ("user_agent", .str "KeyHunter/1.0.0")]

def default : Config := ⟨defaultEntries.map fun e => (.str e.1, e.2)⟩

def fill (c : Config) : Config := defaultEntries.foldl (fun c e => c.setDefault e.1 e.2) c

inductive Fault where
  | notStrings (key : String)
  | notBool
  | badTimeout
deriving DecidableEq, Repr

def Fault.message : Fault → String
  | notStrings key => key ++ " must be a list of strings"
  | notBool => "broad_patterns must be true or false"
  | badTimeout => "request_timeout must be a positive number"

def isStringList : Option Value → Bool
  | some (.list items) => items.all fun v => v.str?.isSome
  | _ => false

def isBool : Option Value → Bool
  | some (.bool _) => true
  | _ => false

def isTimeout : Option Value → Bool
  | some (.int n) => 0 < n
  | some (.real x) =>
    match x.compareInt 0 with
    | some .lt => false
    | some .eq => false
    | _ => true
  | _ => false

def fault? (c : Config) : Option Fault :=
  if !isStringList (c.get? "skip_dirs") then some (.notStrings "skip_dirs")
  else if !isStringList (c.get? "skip_extensions") then some (.notStrings "skip_extensions")
  else if !isBool (c.get? "broad_patterns") then some .notBool
  else if !isTimeout (c.get? "request_timeout") then some .badTimeout
  else none

def validate (c : Config) : Except Fault Config :=
  match c.fill.fault? with
  | some f => .error f
  | none => .ok c.fill

/-- The catalog that settings ask for; the broad one unless they say no. -/
def mode (c : Config) : Catalog.Mode :=
  if ((c.get? "broad_patterns").getD (.bool true)).truthy then .broad else .strict

/-- The settings that a scan uses: none at all stand for the defaults. -/
def orDefault : Option Config → Config
  | some c => if c.entries.isEmpty then default else c
  | none => default

inductive SkipFault where
  | notIterable (kind : String)
  | unhashable (kind : String)
  | notText (kind : String)
deriving DecidableEq, Repr

def SkipFault.message : SkipFault → String
  | notIterable kind => "'" ++ kind ++ "' object is not iterable"
  | unhashable kind => "unhashable type: '" ++ kind ++ "'"
  | notText kind => "'" ++ kind ++ "' object has no attribute 'lower'"

/-- The members of a value, if it has any: a text has its characters, a map its keys. -/
def members? : Value → Option (List Value)
  | .list items => some items
  | .set items => some items
  | .map entries => some (entries.map (·.1))
  | .str s => some (s.toList.map fun c => .str (String.singleton c))
  | .bytes b => some (b.map fun x => .int x.toNat)
  | _ => none

/-- The directory names in a list of values. Other keys name nothing; collections are refused. -/
def namesOf : List Value → Except SkipFault (List String)
  | [] => .ok []
  | v :: vs =>
    if !v.isKey then .error (.unhashable v.kind)
    else match namesOf vs with
      | .error e => .error e
      | .ok names => .ok (v.str?.toList ++ names)

def extensionsOf : List Value → Except SkipFault (List String)
  | [] => .ok []
  | .str s :: vs =>
    match extensionsOf vs with
    | .error e => .error e
    | .ok exts => .ok (Text.lower s :: exts)
  | v :: _ => .error (.notText v.kind)

structure Skips where
  dirs : List String
  extensions : List String
deriving DecidableEq, Repr

def orStrings (v : Option Value) (ss : List String) : Value :=
  match v with
  | none => strings ss
  | some .null => strings ss
  | some v => v

/-- The skip lists that two values stand for; the directories are looked at first. -/
def skipsOf (dirs extensions : Option Value) : Except SkipFault Skips :=
  let d := orStrings dirs defaultSkipDirs
  let e := orStrings extensions defaultSkipExtensions
  match members? d with
  | none => .error (.notIterable d.kind)
  | some ds =>
    match namesOf ds with
    | .error f => .error f
    | .ok names =>
      match members? e with
      | none => .error (.notIterable e.kind)
      | some es =>
        match extensionsOf es with
        | .error f => .error f
        | .ok exts => .ok ⟨names, exts⟩

def skips (c : Config) : Except SkipFault Skips :=
  skipsOf (c.get? "skip_dirs") (c.get? "skip_extensions")

end Config

end LeakScan
