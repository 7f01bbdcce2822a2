import LeakScan.Yaml.Fault

namespace LeakScan.Yaml

def isAllowed (c : Char) : Bool :=
  let n := c.toNat
  n == 0x9 || n == 0xA || n == 0xD || (0x20 ≤ n && n ≤ 0x7E) || n == 0x85 ||
    (0xA0 ≤ n && n ≤ 0xFFFD) || 0x10000 ≤ n

def isBreak (c : Char) : Bool :=
  c == '\n' || c == '\r' || c == '\x85' || c == '\u2028' || c == '\u2029'

def ending : Char := '\x00'

/-- What stands for the rest of a text that cannot be read. -/
def veil : Char := '\uFFFF'

def endsText (c : Char) : Bool := c == ending || c == veil

def endsLine (c : Char) : Bool := endsText c || isBreak c

def endsTag (c : Char) : Bool := c == ' ' || endsLine c

def endsWord (c : Char) : Bool := c == '\t' || endsTag c

def isSpace (c : Char) : Bool := c == ' ' || c == '\t'

def isNameChar (c : Char) : Bool := c.isAlphanum || c == '-' || c == '_'

def peek (n : Nat) (s : List Char) : Char := (s.drop n).headD ending

/-- The fault of meeting what stands at the start of a text. -/
def Fault.before (s : List Char) : Fault := if peek 0 s == veil then .unreadable else .malformed

/-- The line break at the start of a text: what it is read as, and how many characters it takes. -/
def breakAt? : List Char → Option (Char × Nat)
  | '\r' :: '\n' :: _ => some ('\n', 2)
  | c :: _ =>
    if c == '\u2028' || c == '\u2029' then some (c, 1)
    else if isBreak c then some ('\n', 1)
    else none
  | [] => none

def isMarker (mark : Char) : List Char → Bool
  | a :: b :: c :: r => a == mark && b == mark && c == mark && endsWord (peek 0 r)
  | _ => false

def isSeparator (s : List Char) : Bool := isMarker '-' s || isMarker '.' s

/-- Whether a look for such a start reaches the end of what can be read: it takes in three
characters, and the next one too if they are the marks. -/
def isVeiledStart : List Char → Bool
  | a :: b :: c :: r =>
    a == veil || b == veil || c == veil ||
      ((a == '-' || a == '.') && a == b && b == c && peek 0 r == veil)
  | s => s.contains veil

structure Cursor where
  rest : List Char
  index : Nat
  line : Nat
  column : Nat
deriving DecidableEq, Repr

namespace Cursor

def ofText (s : List Char) : Cursor := ⟨s, 0, 0, 0⟩

def head (c : Cursor) : Char := peek 0 c.rest

def atEnd (c : Cursor) : Bool := endsText c.head

def isVeiled (c : Cursor) : Bool := c.head == veil

def step (c : Cursor) : Cursor :=
  match c.rest with
  | [] => c
  | a :: r =>
    if isBreak a && !(a == '\r' && peek 0 r == '\n') then ⟨r, c.index + 1, c.line + 1, 0⟩
    else ⟨r, c.index + 1, c.line, if a == '\uFEFF' then c.column else c.column + 1⟩

def forward : Nat → Cursor → Cursor
  | 0, c => c
  | n + 1, c => forward n c.step

def skip (p : Char → Bool) (c : Cursor) : Cursor := c.forward (c.rest.takeWhile p).length

def lineBreak (c : Cursor) : List Char × Cursor :=
  match breakAt? c.rest with
  | some (b, n) => ([b], c.forward n)
  | none => ([], c)

end Cursor

end LeakScan.Yaml
