import LeakScan.Yaml.Label
import LeakScan.Yaml.Plain
import LeakScan.Yaml.Source

namespace LeakScan.Yaml

structure KeyStart where
  /-- How many tokens stand before it. -/
  tokens : Nat
  index : Nat
  line : Nat
  column : Nat
  /-- Nothing but a key can stand there. -/
  required : Bool
deriving DecidableEq, Repr

structure Lexer where
  cursor : Cursor
  /-- The tokens so far, the last one first, and their number. -/
  tokens : List Token
  count : Nat
  /-- How many of them are given out. -/
  given : Nat
  /-- The least column of what belongs inside the innermost block collection; zero outside of all.
  -/
  margin : Nat
  /-- The margins of the block collections around. -/
  margins : List Nat
  keyAllowed : Bool
  /-- Where a key may have started in the innermost collection in brackets. -/
  key : Option KeyStart
  /-- The same for the collections around it; there are as many as open brackets. -/
  outerKeys : List (Option KeyStart)

namespace Lexer

def start (s : List Char) : Lexer :=
  let c := Cursor.ofText s
  ⟨if c.head == '\uFEFF' then c.step else c, [], 0, 0, 0, [], true, none, []⟩

def inFlow (l : Lexer) : Bool := !l.outerKeys.isEmpty

def put (l : Lexer) (t : Token) : Lexer := { l with tokens := t :: l.tokens, count := l.count + 1 }

def putAt (l : Lexer) (before : Nat) (t : Token) : Lexer :=
  let after := l.count - before
  { l with tokens := l.tokens.take after ++ t :: l.tokens.drop after, count := l.count + 1 }

def forward (l : Lexer) (n : Nat) : Lexer := { l with cursor := l.cursor.forward n }

def keyReach : Nat := 1024

def freshKey (c : Cursor) (k : Option KeyStart) : Except Fault (Option KeyStart) :=
  match k with
  | none => .ok none
  | some s =>
    if s.line = c.line ∧ c.index ≤ s.index + keyReach then .ok k
    else if s.required then .error .malformed
    else .ok none

def freshKeys (c : Cursor) : List (Option KeyStart) → Except Fault (List (Option KeyStart))
  | [] => .ok []
  | k :: ks =>
    match freshKey c k, freshKeys c ks with
    | .ok k, .ok ks => .ok (k :: ks)
    | _, _ => .error .malformed

def dropStale (l : Lexer) : Except Fault Lexer :=
  match freshKeys l.cursor (l.key :: l.outerKeys) with
  | .ok (k :: ks) => .ok { l with key := k, outerKeys := ks }
  | .ok [] => .ok l
  | .error f => .error f

def dropKey (l : Lexer) : Except Fault Lexer :=
  match l.key with
  | some s => if s.required then .error .malformed else .ok { l with key := none }
  | none => .ok l

def saveKey (l : Lexer) : Except Fault Lexer :=
  if !l.keyAllowed then .ok l
  else
    let c := l.cursor
    let s : KeyStart := ⟨l.count, c.index, c.line, c.column, !l.inFlow && l.margin == c.column + 1⟩
    (dropKey l).map fun l => { l with key := some s }

def closeFrom (least : Nat) : (margins : List Nat) → Lexer → Lexer
  | [], l => l
  | m :: ms, l =>
    if l.margin ≤ least then l
    else closeFrom least ms { l.put .blockEnd with margin := m, margins := ms }

/-- Closes the block collections that what stands at a column does not belong to. Brackets keep all
open. -/
def closeBlocks (l : Lexer) (least : Nat) : Lexer :=
  if l.inFlow then l else closeFrom least l.margins l

/-- Opens a block collection at a column, unless the innermost one is there already. -/
def openBlock (l : Lexer) (column before : Nat) (t : Token) : Lexer :=
  if l.margin ≤ column then
    { l.putAt before t with margin := column + 1, margins := l.margin :: l.margins }
  else l

def gap : (comment : Bool) → List Char → Nat × Bool
  | _, [] => (0, false)
  | comment, c :: r =>
    if isBreak c then ((gap false r).1 + 1, true)
    else if (comment && !endsText c) || c == ' ' then
      let (n, broken) := gap comment r
      (n + 1, broken)
    else if c == '#' then
      let (n, broken) := gap true r
      (n + 1, broken)
    else (0, false)

def toToken (l : Lexer) : Lexer :=
  let (n, broken) := gap false l.cursor.rest
  { l.forward n with keyAllowed := l.keyAllowed || (broken && !l.inFlow) }

/-- The beginning or end of a document, or a directive: all block collections end. -/
def atTop (l : Lexer) : Except Fault Lexer :=
  (l.closeBlocks 0).dropKey.map fun l => { l with keyAllowed := false }

def separator (l : Lexer) (t : Token) : Except Fault Lexer :=
  l.atTop.map fun l => (l.forward 3).put t

def directive (l : Lexer) : Except Fault Lexer :=
  match l.atTop with
  | .error f => .error f
  | .ok l => (Yaml.directive l.cursor.step).map fun (t, c) => { l.put t with cursor := c }

def openFlow (l : Lexer) (t : Token) : Except Fault Lexer :=
  l.saveKey.map fun l =>
    { (l.forward 1).put t with keyAllowed := true, key := none, outerKeys := l.key :: l.outerKeys }

def closeFlow (l : Lexer) (t : Token) : Except Fault Lexer :=
  match l.dropKey, l.outerKeys with
  | .ok l, k :: ks => .ok { (l.forward 1).put t with keyAllowed := false, key := k, outerKeys := ks }
  | _, _ => .error .malformed

def comma (l : Lexer) : Except Fault Lexer :=
  l.dropKey.map fun l => { (l.forward 1).put .comma with keyAllowed := true }

def blockMark (l : Lexer) (opening : Token) : Except Fault Lexer :=
  if l.inFlow then .ok l
  else if l.keyAllowed then .ok (l.openBlock l.cursor.column l.count opening)
  else .error .malformed

def itemMark (l : Lexer) : Except Fault Lexer :=
  match l.blockMark .blockSequence with
  | .error f => .error f
  | .ok l => l.dropKey.map fun l => { (l.forward 1).put .item with keyAllowed := true }

def keyMark (l : Lexer) : Except Fault Lexer :=
  match l.blockMark .blockMapping with
  | .error f => .error f
  | .ok l => l.dropKey.map fun l => { (l.forward 1).put .key with keyAllowed := !l.inFlow }

def valueMark (l : Lexer) : Except Fault Lexer :=
  match l.key with
  | some s =>
    let l := { l.putAt s.tokens .key with key := none }
    let l := if l.inFlow then l else l.openBlock s.column s.tokens .blockMapping
    .ok { (l.forward 1).put .value with keyAllowed := false }
  | none =>
    (l.blockMark .blockMapping).map fun l =>
      { (l.forward 1).put .value with keyAllowed := !l.inFlow }

def keyToken (l : Lexer) (read : Cursor → Except Fault (Token × Cursor)) : Except Fault Lexer :=
  match l.saveKey with
  | .error f => .error f
  | .ok l => (read l.cursor).map fun (t, c) => { l.put t with cursor := c, keyAllowed := false }

def quoted (l : Lexer) (double : Bool) : Except Fault Lexer :=
  l.keyToken fun c =>
    (quotedFrom double 0 (c.rest.drop 1)).map fun (t, n) => (.scalar t false, c.forward (n + 1))

def blockScalar (l : Lexer) (joins : Bool) : Except Fault Lexer :=
  match l.dropKey with
  | .error f => .error f
  | .ok l =>
    (block joins l.margin l.cursor.step).map fun (t, c) =>
      { l.put (.scalar (Text.Code.ofChars t) false) with cursor := c, keyAllowed := true }

def plain (l : Lexer) : Except Fault Lexer :=
  l.saveKey.map fun l =>
    let p := Yaml.plain l.inFlow l.margin l.cursor
    { l.put (.scalar (Text.Code.ofChars p.text) true) with cursor := p.cursor, keyAllowed := p.broken }

def isMark (c : Char) : Bool := "-?:,[]\x7b\x7d#&*!|>'\"%@\x60".toList.contains c

/-- Whether a plain scalar starts here. Three of the marks may start one before what is no blank. -/
def startsPlain (inFlow : Bool) (s : List Char) : Bool :=
  let c := peek 0 s
  (!endsWord c && !isMark c) ||
    (!endsWord (peek 1 s) && (c == '-' || (!inFlow && (c == '?' || c == ':'))))

def token (l : Lexer) : Except Fault Lexer :=
  let s := l.cursor.rest
  let atLine := l.cursor.column == 0
  let spaced := l.inFlow || endsWord (peek 1 s)
  match l.cursor.head with
  | '[' => l.openFlow .flowSequence
  | '\x7b' => l.openFlow .flowMapping
  | ']' => l.closeFlow .flowSequenceEnd
  | '\x7d' => l.closeFlow .flowMappingEnd
  | ',' => l.comma
  | '*' => l.keyToken fun c => (anchorName c.step).map fun (n, c) => (.alias n, c)
  | '&' => l.keyToken fun c => (anchorName c.step).map fun (n, c) => (.anchor n, c)
  | '!' => l.keyToken tag
  | '\x27' => l.quoted false
  | '"' => l.quoted true
  | h =>
    if atLine && (h == '-' || h == '.') && isVeiledStart s then .error .unreadable
    else if (h == '-' || h == '?' || h == ':') && peek 1 s == veil then .error .unreadable
    else if h == '%' && atLine then l.directive
    else if atLine && isMarker '-' s then l.separator .documentStart
    else if atLine && isMarker '.' s then l.separator .documentEnd
    else if h == '-' && endsWord (peek 1 s) then l.itemMark
    else if h == '?' && spaced then l.keyMark
    else if h == ':' && spaced then l.valueMark
    else if h == '|' && !l.inFlow then l.blockScalar false
    else if h == '>' && !l.inFlow then l.blockScalar true
    else if startsPlain l.inFlow s then l.plain
    else .error (.before (s.drop 1))

def short (l : Lexer) : Except Fault Lexer :=
  if l.cursor.isVeiled then .error .unreadable else .ok l

def advance (l : Lexer) : Except Fault Lexer :=
  match l.toToken.short with
  | .error f => .error f
  | .ok l => l.dropStale.map fun l => l.closeBlocks (l.cursor.column + 1)

def fetch (l : Lexer) : Except Fault Lexer :=
  match l.token with
  | .error f => .error f
  | .ok l => l.short

/-- Gives out the tokens before the first place where a key may still have started. -/
def release (l : Lexer) : Except Fault Lexer :=
  if l.count ≤ l.given then .ok l
  else l.dropStale.map fun l =>
    let starts := (l.key :: l.outerKeys).filterMap fun k => k.map (·.tokens)
    { l with given := starts.foldl min l.count }

def brokenOff (l : Lexer) (f : Fault) : List Token := l.tokens.reverse.take l.given ++ [.broken f]

/-- Reads tokens to the end. Every token takes a character. -/
def run : (fuel : Nat) → Lexer → List Token
  | 0, l => l.brokenOff .malformed
  | fuel + 1, l =>
    match l.release with
    | .error f => l.brokenOff f
    | .ok l =>
      match l.advance with
      | .error f => l.brokenOff f
      | .ok next =>
        if next.cursor.atEnd then
          match next.atTop with
          | .error f => l.brokenOff f
          | .ok next => next.tokens.reverse ++ [.finish]
        else match next.fetch with
          | .error f => l.brokenOff f
          | .ok next => run fuel next

end Lexer

def tokens (s : Source) : List Token :=
  (Lexer.run (s.text.length + 1) (.start s.text)).map fun t =>
    if t = .broken .unreadable then .broken (s.cause.getD .malformed) else t

end LeakScan.Yaml
