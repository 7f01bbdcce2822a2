import LeakScan.Text.Quoted

namespace LeakScan.Path

def piecesChars : List Char → List (List Char)
  | [] => [[]]
  | c :: r =>
    if c = '/' then [] :: piecesChars r
    else match piecesChars r with
      | p :: ps => (c :: p) :: ps
      | [] => [[c]]

def pieces (path : String) : List String := (piecesChars path.toList).map String.ofList

def isAbsolute (path : String) : Bool := path.toList.head? == some '/'

def leading (path : String) : String :=
  match path.toList with
  | '/' :: '/' :: '/' :: _ => "/"
  | '/' :: '/' :: _ => "//"
  | '/' :: _ => "/"
  | _ => ""

/-- The names of a path; empty pieces and single dots say nothing. -/
def names (path : String) : List String := (pieces path).filter fun p => p != "" && p != "."

/-- The text of a path without needless slashes and dots. -/
def normal (path : String) : String :=
  let text := leading path ++ "/".intercalate (names path)
  if text = "" then "." else text

def listed (directory name : String) : String :=
  if directory.toList.getLast? = some '/' then directory ++ name else directory ++ "/" ++ name

def below (directory name : String) : String :=
  if directory = "." then name else listed directory name

def ofLocation (place : List String) : String := "/" ++ "/".intercalate place

def hasNul (path : String) : Bool := path.toList.contains '\x00'

/-- The pieces that say something to the system. A slash at the end asks for a directory without
looking anything up in it, and leaves an empty piece. -/
def steps (path : String) : List String :=
  let ps := (pieces path).filter (· != "")
  if path.toList.getLast? = some '/' then ps ++ [""] else ps

/-- The suffix of a name: from its last dot on, unless that is its first or last character. -/
def suffix (name : String) : String :=
  let cs := name.toList
  let tail := (cs.reverse.takeWhile (· != '.')).reverse
  if cs.contains '.' && !tail.isEmpty && tail.length + 1 < cs.length then
    String.ofList ('.' :: tail)
  else ""

end LeakScan.Path
