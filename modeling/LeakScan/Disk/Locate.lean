import LeakScan.Disk.Fault
import LeakScan.Disk.Node
import LeakScan.Disk.Path

namespace LeakScan

/-- A tree of files and the place where relative paths start. -/
structure Disk where
  root : Node
  here : Location

namespace Disk

inductive Found where
  | node (place : Location) (n : Node)
  /-- Nothing stands there, but its directory does. -/
  | vacant (directory : Location) (name : String)

/-- Where one run of steps ends: at its goal, at a fault, or at a link still to be followed. -/
inductive Stop where
  | found (f : Found)
  | fault (f : PathFault)
  | link (directory : Location) (target : String) (rest : List String)

def nameLimit : Nat := 255

def pathLimit : Nat := 4095

def linkLimit : Nat := 40

inductive Move where
  | stay
  | up
  | lookUp
  | refused (f : PathFault)

/-- What a step asks of a directory. All but the empty piece need leave to search it. -/
def moveOf (access : Access) (step : String) : Move :=
  if step = "" then .stay
  else if !access.search then .refused .denied
  else if step = "." then .stay
  else if step = ".." then .up
  else if nameLimit < step.utf8ByteSize then .refused .nameTooLong
  else .lookUp

def descend (root : Node) : Location → List String → Stop
  | place, [] =>
    match root.at? place with
    | some n => .found (.node place n)
    | none => .fault .noEntry
  | place, step :: rest =>
    match root.at? place with
    | some (.directory entries access) =>
      match moveOf access step with
      | .stay => descend root place rest
      | .up => descend root place.dropLast rest
      | .refused f => .fault f
      | .lookUp =>
        match Node.child? entries step with
        | some (.link target) => .link place target rest
        | some _ => descend root (place ++ [step]) rest
        | none => if rest.isEmpty then .found (.vacant place step) else .fault .noEntry
    | some _ => .fault .notDirectory
    | none => .fault .noEntry

def startOf (directory : Location) (path : String) : Location :=
  if Path.isAbsolute path then [] else directory

def locateFrom (root : Node) : (links : Nat) → Location → List String → Except PathFault Found
  | links, place, steps =>
    match descend root place steps with
    | .found f => .ok f
    | .fault f => .error f
    | .link directory target rest =>
      match links with
      | 0 => .error .tooManyLinks
      | links + 1 =>
        locateFrom root links (startOf directory target) (Path.steps target ++ rest)

def locate (d : Disk) (path : String) : Except PathFault Found :=
  if Path.hasNul path then .error .nul
  else if path.isEmpty then .error .noEntry
  else if pathLimit < path.utf8ByteSize then .error .nameTooLong
  else locateFrom d.root linkLimit (startOf d.here path) (Path.steps path)

def node (d : Disk) (path : String) : Except PathFault Node :=
  match d.locate path with
  | .ok (.node _ n) => .ok n
  | .ok (.vacant _ _) => .error .noEntry
  | .error f => .error f

/-- Whether a path names a node with a property; faults that mean absence are no errors. -/
def holdsAt (d : Disk) (path : String) (p : Node → Bool) : Except PathError Bool :=
  match d.node path with
  | .ok n => .ok (p n)
  | .error f => if f.meansAbsent then .ok false else .error ⟨f, path⟩

def isPresent (d : Disk) (path : String) : Except PathError Bool := d.holdsAt path fun _ => true

def isDirectory (d : Disk) (path : String) : Except PathError Bool :=
  d.holdsAt path Node.isDirectory

/-- The bytes that can be read from a node. A directory has none, and a pipe has nothing to give. -/
def contentOf : Node → Except PathFault (List UInt8)
  | .file bytes access => if access.read then .ok bytes else .error .denied
  | .directory _ access => .error (if access.read then .isDirectory else .denied)
  | _ => .ok []

def readAt (d : Disk) (path : String) : Except PathError (List UInt8) :=
  match d.node path with
  | .ok n => (contentOf n).mapError (⟨·, path⟩)
  | .error f => .error ⟨f, path⟩

/-- Writes a whole file: over an old one, or a new one where its directory stands. -/
def writeAt (d : Disk) (path : String) (bytes : List UInt8) : Except PathError Disk :=
  match d.locate path with
  | .ok (.node place (.file _ access)) =>
    if access.write then .ok { d with root := d.root.put place (.file bytes access) }
    else .error ⟨.denied, path⟩
  | .ok (.node _ (.directory _ _)) => .error ⟨.isDirectory, path⟩
  | .ok (.node _ _) => .ok d
  | .ok (.vacant directory name) =>
    if d.root.writableAt directory then
      .ok { d with root := d.root.put (directory ++ [name]) (.file bytes .full) }
    else .error ⟨.denied, path⟩
  | .error f => .error ⟨f, path⟩

end Disk

end LeakScan
