import LeakScan.Yaml.Cursor

namespace LeakScan.Yaml

inductive Chomp where
  | strip
  | clip
  | keep
deriving DecidableEq, Repr

def chompOf? (c : Char) : Option Chomp :=
  if c == '+' then some .keep
  else if c == '-' then some .strip
  else none

def stepOf? (c : Char) : Option (Except Fault Nat) :=
  if c.isDigit then some (if c == '0' then .error .malformed else .ok (c.toNat - '0'.toNat)) else none

def blockHeader (s : List Char) : Except Fault (Chomp × Option Nat × Nat) :=
  match chompOf? (peek 0 s) with
  | some chomp =>
    match stepOf? (peek 1 s) with
    | some (.ok n) => .ok (chomp, some n, 2)
    | some (.error f) => .error f
    | none => .ok (chomp, none, 1)
  | none =>
    match stepOf? (peek 0 s) with
    | some (.error f) => .error f
    | none => .ok (.clip, none, 0)
    | some (.ok n) =>
      match chompOf? (peek 1 s) with
      | some chomp => .ok (chomp, some n, 2)
      | none => .ok (.clip, some n, 1)

def endOfLine (c : Cursor) : Except Fault Cursor :=
  let c := c.skip (· == ' ')
  let c := if c.head == '#' then c.skip (! endsLine ·) else c
  if endsLine c.head then .ok c.lineBreak.2 else .error .malformed

/-- Blank lines before the text, the widest indentation met, and how many characters they take. -/
def leadingBreaks : (column widest : Nat) → List Char → List Char × Nat × Nat
  | _, widest, [] => ([], widest, 0)
  | column, widest, c :: r =>
    if c == ' ' then
      let (bs, w, n) := leadingBreaks (column + 1) (max widest (column + 1)) r
      (bs, w, n + 1)
    else if c == '\r' && peek 0 r == '\n' then
      let (bs, w, n) := leadingBreaks column widest r
      (bs, w, n + 1)
    else match breakAt? [c] with
      | some (b, _) =>
        let (bs, w, n) := leadingBreaks 0 widest r
        (b :: bs, w, n + 1)
      | none => ([], widest, 0)

/-- Blank lines and then at most `indent` blanks, and how many characters they take. -/
def blockBreaks (indent : Nat) : (column : Nat) → List Char → List Char × Nat
  | _, [] => ([], 0)
  | column, c :: r =>
    if c == ' ' && column < indent then
      let (bs, n) := blockBreaks indent (column + 1) r
      (bs, n + 1)
    else if c == '\r' && peek 0 r == '\n' then
      let (bs, n) := blockBreaks indent column r
      (bs, n + 1)
    else match breakAt? [c] with
      | some (b, _) =>
        let (bs, n) := blockBreaks indent 0 r
        (b :: bs, n + 1)
      | none => ([], 0)

/-- The lines of a block scalar: their text, the break of the last line, the blank lines after it,
and the place that follows. -/
structure BlockLines where
  text : List Char
  last : List Char
  breaks : List Char
  cursor : Cursor

/-- What stands for the break between two lines: a joining scalar puts a blank between lines that
are not indented further, unless blank lines follow. -/
def blockJoint (joins : Bool) (line last breaks : List Char) (next : Char) : List Char :=
  if joins && last == ['\n'] && !isSpace (peek 0 line) && !isSpace next then
    if breaks.isEmpty then [' '] else []
  else last

/-- Reads lines that are indented by `indent` columns; `breaks` are the blank lines before. -/
def blockLines (joins : Bool) (indent : Nat) :
    (fuel : Nat) → (breaks : List Char) → Cursor → BlockLines
  | 0, breaks, c => ⟨[], [], breaks, c⟩
  | fuel + 1, breaks, c =>
    if c.column ≠ indent || c.atEnd then ⟨[], [], breaks, c⟩
    else
      let line := c.rest.takeWhile (! endsLine ·)
      let (last, after) := (c.forward line.length).lineBreak
      let (next, n) := blockBreaks indent after.column after.rest
      let after := after.forward n
      if after.column = indent && !after.atEnd then
        let r := blockLines joins indent fuel next after
        { r with text := breaks ++ line ++ blockJoint joins line last next after.head ++ r.text }
      else ⟨breaks ++ line, last, next, after⟩

def block (joins : Bool) (margin : Nat) (c : Cursor) : Except Fault (List Char × Cursor) :=
  match blockHeader c.rest with
  | .error f => .error f
  | .ok (chomp, step, n) =>
    let c := c.forward n
    if !endsTag c.head then .error .malformed
    else match endOfLine c with
      | .error f => .error f
      | .ok c =>
        let least := max 1 margin
        let (indent, breaks, n) := match step with
          | some step =>
            let indent := least + step - 1
            (indent, blockBreaks indent c.column c.rest)
          | none =>
            let (breaks, widest, n) := leadingBreaks c.column 0 c.rest
            (max least widest, breaks, n)
        let r := blockLines joins indent (c.rest.length + 1) breaks (c.forward n)
        let last := if chomp = .strip then [] else r.last
        let breaks := if chomp = .keep then r.breaks else []
        .ok (r.text ++ last ++ breaks, r.cursor)

end LeakScan.Yaml
