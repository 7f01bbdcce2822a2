import LeakScan.Disk.Locate

namespace LeakScan

namespace Node

mutual

/-- The files of a tree that stands at a place, with their bytes. -/
def files (place : Location) : Node → List (Location × List UInt8)
  | file bytes _ => [(place, bytes)]
  | directory entries _ => filesOf place entries
  | _ => []

def filesOf (place : Location) : List (String × Node) → List (Location × List UInt8)
  | [] => []
  | (name, n) :: rest => n.files (place ++ [name]) ++ filesOf place rest

end

def holdsFile (root : Node) (place : Location) (bytes : List UInt8) : Bool :=
  match root.at? place with
  | some (file old _) => old == bytes
  | _ => false

end Node

def Disk.changes (before after : Disk) : List (String × List UInt8) :=
  ((after.root.files []).filter fun f => !before.root.holdsFile f.1 f.2).map fun f =>
    (Path.ofLocation f.1, f.2)

end LeakScan
