import LeakScan.Disk.Locate

namespace LeakScan.Disk

/-- How a place has been spelled so far: from the top, or from the working directory with some steps
up. One link met under two spellings counts as two. -/
inductive Spelling where
  | fromTop
  | fromHere (up : Nat)
deriving DecidableEq, Repr

inductive Resolved where
  | place (place : Location) (spelling : Spelling)
  /-- A link that is still being resolved was met again; the pieces say where, and what was left. -/
  | loop (pieces : List String)
  | nul

def goUp (here : Location) (place : Location) : Spelling → Spelling
  | .fromTop => .fromTop
  | .fromHere up =>
    if place.length ≤ here.length - up then .fromHere (min here.length (up + 1)) else .fromHere up

/-- Adds the pieces that were left when a loop was met. Pieces that begin with a slash start over.
-/
def leave (pieces rest : List String) : List String :=
  match rest with
  | "" :: a :: r => a :: r
  | _ => pieces ++ rest

/-- Whether names can be looked up in all directories on the way to a place, from the one that is
`first` steps from the top on. -/
def wayIsOpen (root : Node) (first : Nat) (place : Location) : Bool :=
  (List.range (place.length + 1)).all fun n => n < first || root.searchableAt (place.take n)

/-- Whether the system can look up a name where a path that is spelled so has come to. From the
working directory it goes up first. -/
def canLook (root : Node) (here place : Location) : Spelling → Bool
  | .fromTop => wayIsOpen root 0 place
  | .fromHere up =>
    wayIsOpen root (here.length + 1 - up) here && wayIsOpen root (here.length - up) place

/-- The target of a link. One that the system does not show is taken for anything else. -/
def target? (root : Node) (here place : Location) (spelling : Spelling) (name : String) :
    Option String :=
  match root.at? (place ++ [name]) with
  | some (.link target) => if canLook root here place spelling then some target else none
  | _ => none

def resolvePieces (root : Node) (here : Location)
    (onLink : Location → Spelling → String → Resolved) :
    Location → Spelling → List String → Resolved
  | place, spelling, [] => .place place spelling
  | place, spelling, piece :: rest =>
    if piece = "" ∨ piece = "." then resolvePieces root here onLink place spelling rest
    else if piece = ".." then
      resolvePieces root here onLink place.dropLast (goUp here place spelling) rest
    else if Path.hasNul piece then .nul
    else
      match target? root here place spelling piece with
      | some target =>
        match onLink (place ++ [piece]) spelling target with
        | .place q s => resolvePieces root here onLink q s rest
        | .loop pieces => .loop (leave pieces rest)
        | .nul => .nul
      | none => resolvePieces root here onLink (place ++ [piece]) spelling rest

/-- The pieces of a path, and the place and spelling where they start if the path is met in
`directory`. -/
def startPieces (directory : Location) (spelling : Spelling) (path : String) :
    Location × Spelling × List String :=
  if Path.isAbsolute path then ([], .fromTop, (Path.pieces path).drop 1)
  else (directory, spelling, Path.pieces path)

def resolveLink (root : Node) (here : Location) : (depth : Nat) →
    (opened : List (Location × Spelling)) → Location → Spelling → String → Resolved
  | 0, _, place, _, _ => .loop place
  | depth + 1, opened, place, spelling, target =>
    if (place, spelling) ∈ opened then .loop place
    else
      let (p, s, pieces) := startPieces place.dropLast spelling target
      resolvePieces root here (resolveLink root here depth ((place, spelling) :: opened)) p s pieces

/-- Takes back every `..` and drops empty pieces and single dots, without looking at the tree. -/
def collapse (place : Location) : List String → Location
  | [] => place
  | piece :: rest =>
    if piece = "" ∨ piece = "." then collapse place rest
    else if piece = ".." then collapse place.dropLast rest
    else collapse (place ++ [piece]) rest

inductive Unresolved where
  | loop (path : String)
  | nul
deriving DecidableEq, Repr

def Unresolved.message : Unresolved → String
  | loop path => "Symlink loop from " ++ Text.quoted path
  | nul => PathFault.nul.label

/-- The place that a path resolves to before it is asked for. A link is met at most once under each
spelling, which bounds the depth. -/
def resolve (d : Disk) (path : String) : Resolved :=
  let (p, s, pieces) := startPieces d.here (.fromHere 0) path
  let depth := d.root.linkCount * (d.here.length + 2)
  resolvePieces d.root d.here (resolveLink d.root d.here depth []) p s pieces

def settle (d : Disk) (place : Location) : Except Unresolved Location :=
  let path := Path.ofLocation place
  match d.node path with
  | .error .tooManyLinks => .error (.loop path)
  | .error .nul => .error .nul
  | _ => .ok place

def canonical (d : Disk) (path : String) : Except Unresolved Location :=
  match d.resolve (Path.normal path) with
  | .place place _ => d.settle place
  | .loop pieces => d.settle (collapse [] pieces)
  | .nul => .error .nul

end LeakScan.Disk
