import LeakScan.Text.Digits
import LeakScan.Text.Quoted

namespace LeakScan.Command

inductive Arity where
  | flag
  /-- A value, which may have to be one of some choices. -/
  | value (choices : Option (List String))
  | help
deriving DecidableEq, Repr

structure Switch where
  names : List String
  arity : Arity
deriving DecidableEq, Repr

inductive Slot where
  | none
  | optional
  | required (name : String)
  /-- A command, and all words after it. -/
  | command (name : String) (choices : List String)
deriving DecidableEq, Repr

structure Grammar where
  switches : List Switch
  slot : Slot
deriving DecidableEq, Repr

inductive Stop where
  | help
  | misuse (words : String)
deriving DecidableEq, Repr

/-- What a command line says, piece by piece. Options are known by the last of their names. -/
inductive Piece where
  | flag (name : String)
  | value (name text : String)
  /-- An option with two dashes in place of a value. -/
  | blank (name : String)
  | words (ws : List String)
deriving DecidableEq, Repr

inductive Mark where
  | word
  /-- Two dashes: no options follow. -/
  | dashes
  /-- One or more options, with what is written behind them in the same word. -/
  | option (switch : Switch) (name : String) (behind : Option String)
  | unknown
deriving DecidableEq, Repr

namespace Switch

def name (s : Switch) : String := s.names.getLast?.getD ""

def complaint (s : Switch) : String := "argument " ++ "/".intercalate s.names ++ ": "

end Switch

def badChoice (value : String) (choices : List String) : String :=
  "invalid choice: " ++ Text.quoted value ++ " (choose from " ++
    ", ".intercalate (choices.map Text.quoted) ++ ")"

def ignored (text : String) : String := "ignored explicit argument " ++ Text.quoted text

namespace Grammar

def names (g : Grammar) : List (String × Switch) :=
  g.switches.flatMap fun s => s.names.map fun n => (n, s)

def switch? (g : Grammar) (name : String) : Option Switch := g.names.lookup name

def splitEquals (cs : List Char) : Option (List Char × List Char) :=
  if cs.contains '=' then some (cs.takeWhile (· != '='), (cs.dropWhile (· != '=')).drop 1) else none

def candidates (g : Grammar) (cs : List Char) : List (Switch × String × Option String) :=
  match cs with
  | '-' :: '-' :: _ =>
    let (start, behind) := match splitEquals cs with
      | some (start, behind) => (start, some (String.ofList behind))
      | none => (cs, none)
    (g.names.filter fun e => start.isPrefixOf e.1.toList).map fun e => (e.2, e.1, behind)
  | _ =>
    g.names.filterMap fun e =>
      if e.1.toList = cs.take 2 then some (e.2, e.1, some (String.ofList (cs.drop 2)))
      else if cs.isPrefixOf e.1.toList then some (e.2, e.1, none)
      else none

def withoutLineFeed (cs : List Char) : List Char := if cs.getLast? = some '\n' then cs.dropLast else cs

/-- A word for a number below zero, in the digits of any script. A line feed at its end does not
count. -/
def isNegativeNumber (cs : List Char) : Bool :=
  match withoutLineFeed cs with
  | '-' :: r =>
    match r.dropWhile Text.isDecimal with
    | [] => !r.isEmpty
    | '.' :: f => !f.isEmpty && f.all Text.isDecimal
    | _ => false
  | _ => false

def mark (g : Grammar) (word : String) : Except Stop Mark :=
  let cs := word.toList
  let byStart : Except Stop Mark :=
    match g.candidates cs with
    | [(s, name, behind)] => .ok (.option s name behind)
    | [] =>
      if isNegativeNumber cs || cs.contains ' ' then .ok .word else .ok .unknown
    | many =>
      .error (.misuse ("ambiguous option: " ++ word ++ " could match " ++
        ", ".intercalate (many.map (·.2.1))))
  match cs with
  | '-' :: _ :: _ =>
    match g.switch? word with
    | some s => .ok (.option s word none)
    | none =>
      match splitEquals cs with
      | some (start, behind) =>
        match g.switch? (String.ofList start) with
        | some s => .ok (.option s (String.ofList start) (some (String.ofList behind)))
        | none => byStart
      | none => byStart
  | _ => .ok .word

def marks (g : Grammar) : List String → Except Stop (List (String × Mark))
  | [] => .ok []
  | w :: ws =>
    if w = "--" then .ok ((w, .dashes) :: ws.map fun w => (w, .word))
    else match g.mark w with
      | .error e => .error e
      | .ok m => (g.marks ws).map ((w, m) :: ·)

def letter? (g : Grammar) (c : Char) : Option Switch := g.switch? (String.ofList ['-', c])

/-- The options in a word that all take nothing: the first, and one for each letter behind it. -/
def cluster (g : Grammar) (s : Switch) : (behind : List Char) → Except Stop (List Switch)
  | [] => .ok [s]
  | c :: r =>
    match g.letter? c with
    | some next => (g.cluster next r).map (s :: ·)
    | none => .error (.misuse (s.complaint ++ ignored (String.ofList (c :: r))))

/-- The value of an option, if it is one of the choices. Two dashes are no value, but any option
takes them. -/
def valuePiece (s : Switch) (choices : Option (List String)) (text : String) : Except Stop Piece :=
  if text = "--" then .ok (.blank s.name)
  else match choices with
  | some cs =>
    if cs.contains text then .ok (.value s.name text)
    else .error (.misuse (s.complaint ++ badChoice text cs))
  | none => .ok (.value s.name text)

def flagPieces : List Switch → Except Stop (List Piece)
  | [] => .ok []
  | s :: r =>
    if s.arity = .help then .error .help else (flagPieces r).map (.flag s.name :: ·)

def option (g : Grammar) (s : Switch) (name : String) (behind : Option String)
    (next : Option (String × Mark)) : Except Stop (List Piece × Bool) :=
  match s.arity, behind with
  | .value choices, some text => (valuePiece s choices text).map fun p => ([p], false)
  | .value choices, none =>
    match next with
    | some (text, .word) => (valuePiece s choices text).map fun p => ([p], true)
    | _ => .error (.misuse (s.complaint ++ "expected one argument"))
  | _, none => (flagPieces [s]).map fun ps => (ps, false)
  | _, some text =>
    if text.isEmpty || "--".toList.isPrefixOf name.toList then
      .error (.misuse (s.complaint ++ ignored text))
    else match g.cluster s text.toList with
      | .error e => .error e
      | .ok ss => (flagPieces ss).map fun ps => (ps, false)

/-- The words that fill a place, and how many words of the line they take. Two dashes beside a word
belong to it; a command takes all that follows. -/
def fill (slot : Slot) (words : List (String × Mark)) : Option (List String × Nat) :=
  match slot, words with
  | .none, _ => none
  | .command _ _, (_, .dashes) :: [] => none
  | .command _ _, ws => if ws.isEmpty then none else some (ws.map (·.1), ws.length)
  | .optional, (_, .dashes) :: (w, _) :: _ => some ([w], 2)
  | .optional, (_, .dashes) :: [] => some ([], 1)
  | .optional, (w, .word) :: (_, .dashes) :: _ => some ([w], 2)
  | .optional, (w, .word) :: _ => some ([w], 1)
  | .required _, (_, .dashes) :: (w, _) :: _ => some ([w], 2)
  | .required _, (w, .word) :: (_, .dashes) :: _ => some ([w], 2)
  | .required _, (w, .word) :: _ => some ([w], 1)
  | _, _ => none

def checkWords (slot : Slot) (ws : List String) : Except Stop Piece :=
  match slot, ws with
  | .command name choices, w :: _ =>
    if choices.contains w then .ok (.words ws)
    else .error (.misuse ("argument " ++ name ++ ": " ++ badChoice w choices))
  | _, _ => .ok (.words ws)

abbrev Lines := List Piece × List String

def addPieces (ps : List Piece) (l : Lines) : Lines := (ps ++ l.1, l.2)

def addExtra (w : String) (l : Lines) : Lines := (l.1, w :: l.2)

/-- Reads marked words in order; the first `skip` are already read. `slot` is the place still open.
-/
def readFrom (g : Grammar) :
    (slot : Slot) → (skip : Nat) → List (String × Mark) → Except Stop Lines
  | .required name, _, [] => .error (.misuse ("the following arguments are required: " ++ name))
  | _, _, [] => .ok ([], [])
  | slot, skip + 1, _ :: r => g.readFrom slot skip r
  | slot, 0, (w, m) :: r =>
    match m with
    | .unknown => (g.readFrom slot 0 r).map (addExtra w)
    | .option s name behind =>
      match g.option s name behind r.head? with
      | .error e => .error e
      | .ok (ps, takesNext) => (g.readFrom slot (if takesNext then 1 else 0) r).map (addPieces ps)
    | _ =>
      match fill slot ((w, m) :: r) with
      | none => (g.readFrom slot 0 r).map (addExtra w)
      | some (ws, n) =>
        match checkWords slot ws with
        | .error e => .error e
        | .ok p => (g.readFrom .none (n - 1) r).map (addPieces [p])

def read (g : Grammar) (words : List String) : Except Stop Lines :=
  match g.marks words with
  | .error e => .error e
  | .ok ms => g.readFrom g.slot 0 ms

end Grammar

end LeakScan.Command
