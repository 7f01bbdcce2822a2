import LeakScan.Config.Settings
import LeakScan.Disk.Locate
import LeakScan.Document
import LeakScan.Event
import LeakScan.Text.Lines
import LeakScan.Text.Utf8

namespace LeakScan

/-- One thing that a walk meets. The path is the text under which the system knows it. -/
inductive Visit where
  | document (path : String) (d : Document)
  | unlisted (path : String) (relative : String) (error : PathError)
deriving DecidableEq, Repr

/-- What a walk meets in order, and the error that stopped it, if one did. -/
structure Walk where
  visits : List Visit
  stopped : Option PathError
deriving DecidableEq, Repr

namespace Walk

def nothing : Walk := ⟨[], none⟩

def visit (v : Visit) : Walk := ⟨[v], none⟩

def stop (e : PathError) : Walk := ⟨[], some e⟩

def append (a b : Walk) : Walk :=
  match a.stopped with
  | some e => ⟨a.visits, some e⟩
  | none => ⟨a.visits ++ b.visits, b.stopped⟩

def inOrder (entries : List (String × Walk)) : Walk :=
  (entries.mergeSort fun a b => a.1 ≤ b.1).foldr (fun e rest => e.2.append rest) nothing

end Walk

/-- The names of a place below the root of a walk, as reports show it. -/
def relativeText : Location → String
  | [] => "."
  | names => "/".intercalate names

def textOfBytes (bytes : List UInt8) : Except Text.Utf8Failure String :=
  (Text.decodeUtf8 bytes).map fun cs => String.ofList (Text.uniformLineEnds cs)

/-- The document of a file, known as `path` to the system. -/
def documentAt (disk : Disk) (path : String) (relative : Location) : Document :=
  match disk.readAt path with
  | .error e => { path := relativeText relative, text := none, readError := some e.message }
  | .ok bytes =>
    match textOfBytes bytes with
    | .error e => { path := relativeText relative, text := none, readError := some e.message }
    | .ok text => { path := relativeText relative, text := some text }

/-- Whether an entry leads to a directory. A link to nothing does not; one that cannot be followed
is an error. -/
def leadsToDirectory (disk : Disk) (path : String) : Except PathError Bool :=
  match disk.node path with
  | .ok n => .ok n.isDirectory
  | .error .noEntry => .ok false
  | .error f => .error ⟨f, path⟩

def skipsFile (skips : Config.Skips) (name : String) : Bool :=
  Text.lower (Path.suffix name) ∈ skips.extensions

def walkFile (disk : Disk) (skips : Config.Skips) (name path : String) (relative : Location) :
    Walk :=
  if skipsFile skips name then .nothing
  else .visit (.document path (documentAt disk path relative))

/-- Why a directory cannot be listed, if it cannot: its path is too long for the system, it cannot be
looked up in the one above, or it must not be read. -/
def listingFault? (path : String) (searchable : Bool) (access : Access) : Option PathFault :=
  if Disk.pathLimit < path.utf8ByteSize then some .nameTooLong
  else if searchable && access.read then none
  else some .denied

mutual

/-- The walk of one entry, which the system lists as `listed` and knows as `path`. Whether names can be
looked up in its directory is told by `searchable`. -/
def walkEntry (disk : Disk) (skips : Config.Skips) (searchable : Bool) (name listed path : String)
    (relative : Location) : Node → Walk
  | .directory entries access =>
    if name ∈ skips.dirs then .nothing
    else match listingFault? path searchable access with
      | some f => .visit (.unlisted path (relativeText relative) ⟨f, path⟩)
      | none => .inOrder (walkEntries disk skips access.search path relative entries)
  | .file _ _ => walkFile disk skips name path relative
  | .link _ =>
    match leadsToDirectory disk listed with
    | .error e => .stop e
    | .ok true => .nothing
    | .ok false => walkFile disk skips name path relative
  | .pipe => .nothing

def walkEntries (disk : Disk) (skips : Config.Skips) (searchable : Bool) (directory : String)
    (relative : Location) : List (String × Node) → List (String × Walk)
  | [] => []
  | (name, n) :: rest =>
    (name, walkEntry disk skips searchable name (Path.listed directory name)
      (Path.below directory name) (relative ++ [name]) n) ::
        walkEntries disk skips searchable directory relative rest

end

def walk (disk : Disk) (skips : Config.Skips) (root : String) : Walk :=
  let unlisted f := Walk.visit (.unlisted root (relativeText []) ⟨f, root⟩)
  match disk.node root with
  | .ok (.directory entries access) =>
    if access.read then .inOrder (walkEntries disk skips access.search root [] entries)
    else unlisted .denied
  | .ok _ => unlisted .notDirectory
  | .error .nul => .stop ⟨.nul, root⟩
  | .error f => unlisted f

def Visit.events : Visit → List Event
  | .document path d =>
    match d.readError with
    | some e => [⟨.warning, "keyhunter.scanner.direct", "Error reading file " ++ path ++ ": " ++ e⟩]
    | none => []
  | .unlisted path _ e =>
    [⟨.warning, "keyhunter.scanner.direct",
      "Error walking directory " ++ path ++ ": " ++ e.message⟩]

end LeakScan
