namespace LeakScan

/-- What the system lets a program do with a file or a directory. Reading a directory is listing it,
writing is making new entries, and searching is looking up a name in it. -/
structure Access where
  read : Bool := true
  write : Bool := true
  search : Bool := true
deriving DecidableEq, Repr

def Access.full : Access := {}

-- The entries of a directory stand in the order in which the system happens to list them.
inductive Node where
  | file (bytes : List UInt8) (access : Access)
  | directory (entries : List (String × Node)) (access : Access)
  | link (target : String)
  | pipe

/-- A place in a tree: the names on the way from its top. -/
abbrev Location := List String

namespace Node

def empty : Node := directory [] .full

def isDirectory : Node → Bool
  | directory _ _ => true
  | _ => false

def isFile : Node → Bool
  | file _ _ => true
  | _ => false

def child? (entries : List (String × Node)) (name : String) : Option Node := entries.lookup name

def at? : Node → Location → Option Node
  | n, [] => some n
  | directory entries _, name :: rest =>
    match child? entries name with
    | some n => n.at? rest
    | none => none
  | _, _ :: _ => none

def searchableAt (root : Node) (place : Location) : Bool :=
  match root.at? place with
  | some (directory _ access) => access.search
  | _ => false

def writableAt (root : Node) (place : Location) : Bool :=
  match root.at? place with
  | some (directory _ access) => access.write
  | _ => false

def setEntry (name : String) (n : Node) : List (String × Node) → List (String × Node)
  | [] => [(name, n)]
  | (k, m) :: rest => if k = name then (k, n) :: rest else (k, m) :: setEntry name n rest

/-- Changes what stands at a place. Directories on the way are made where nothing stands, and
anything else in the way leaves the tree as it is. -/
def update (change : Option Node → Node) : Option Node → Location → Node
  | old, [] => change old
  | none, name :: rest => directory [(name, update change none rest)] .full
  | some (directory entries access), name :: rest =>
    directory (setEntry name (update change (child? entries name) rest) entries) access
  | some n, _ :: _ => n

def put (root : Node) (place : Location) (n : Node) : Node := update (fun _ => n) (some root) place

mutual

def linkCount : Node → Nat
  | link _ => 1
  | directory entries _ => linkCountEntries entries
  | _ => 0

def linkCountEntries : List (String × Node) → Nat
  | [] => 0
  | (_, n) :: rest => linkCount n + linkCountEntries rest

end

end Node

end LeakScan
