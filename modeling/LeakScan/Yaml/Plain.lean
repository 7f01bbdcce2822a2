import LeakScan.Yaml.Quoted

namespace LeakScan.Yaml

def isBracketMark (c : Char) : Bool := c == ',' || c == '[' || c == ']' || c == '\x7b' || c == '\x7d'

/-- Whether a colon ends a word by what follows it. A look behind the veil decides nothing. -/
def endsColon (inFlow : Bool) (next : Char) : Bool :=
  next != veil && (endsWord next || (inFlow && isBracketMark next))

/-- How many characters of a plain scalar stand together. A colon ends them if a blank follows it.
-/
def plainWord (inFlow : Bool) : List Char → Nat
  | [] => 0
  | c :: r =>
    if endsWord c || (c == ':' && endsColon inFlow (peek 0 r)) ||
        (inFlow && (isBracketMark c || c == '?')) then 0
    else plainWord inFlow r + 1

structure PlainBreaks where
  breaks : List Char
  length : Nat
  /-- A document separator follows. -/
  separated : Bool

def untilVeil (s : List Char) : Nat := (s.takeWhile (· != veil)).length

/-- Reads line breaks and blanks; `atStart` says that a line starts here. Where the look for a
separator reaches the veil, all up to it is taken. -/
def plainBreaks : (atStart : Bool) → List Char → PlainBreaks
  | _, [] => ⟨[], 0, false⟩
  | atStart, c :: r =>
    if atStart && isVeiledStart (c :: r) then ⟨[], untilVeil (c :: r), true⟩
    else if atStart && isSeparator (c :: r) then ⟨[], 0, true⟩
    else if c == ' ' || (c == '\r' && peek 0 r == '\n') then
      let b := plainBreaks false r
      { b with length := b.length + 1 }
    else match breakAt? [c] with
      | some (x, _) =>
        let b := plainBreaks true r
        { b with breaks := x :: b.breaks, length := b.length + 1 }
      | none => ⟨[], 0, false⟩

/-- What stands between two words: its text, how many characters it takes, and whether it holds a
line break. An empty text ends the scalar. -/
structure PlainGap where
  text : List Char
  length : Nat
  broken : Bool

def plainGap (s : List Char) : PlainGap :=
  let blanks := s.takeWhile (· == ' ')
  let after := s.dropWhile (· == ' ')
  match breakAt? after with
  | none => ⟨blanks, blanks.length, false⟩
  | some (b, k) =>
    let bs := plainBreaks true (after.drop k)
    ⟨if bs.separated then [] else folded b bs.breaks, blanks.length + k + bs.length, true⟩

structure Plain where
  text : List Char
  cursor : Cursor
  broken : Bool

def plainFrom (inFlow : Bool) (margin : Nat) : (fuel : Nat) → (gap : PlainGap) → Cursor → Plain
  | 0, gap, c => ⟨[], c, gap.broken⟩
  | fuel + 1, gap, c =>
    let n := if c.head == '#' then 0 else plainWord inFlow c.rest
    if n = 0 then ⟨[], c, gap.broken⟩
    else
      let word := c.rest.take n
      let next := plainGap (c.rest.drop n)
      let after := c.forward (n + next.length)
      if next.text.isEmpty || after.head == '#' || (!inFlow && after.column < margin) then
        ⟨gap.text ++ word, after, next.broken⟩
      else
        let p := plainFrom inFlow margin fuel next after
        { p with text := gap.text ++ word ++ p.text }

/-- The plain scalar at a place. Lines that go on have at least `margin` columns before them. -/
def plain (inFlow : Bool) (margin : Nat) (c : Cursor) : Plain :=
  plainFrom inFlow margin c.rest.length ⟨[], 0, false⟩ c

end LeakScan.Yaml
