import LeakScan.Yaml.Cursor

namespace LeakScan.Yaml

open Text (Code)

/-- Line breaks and the blanks around them, and how many characters they take. `atStart` says that a
line starts here; a document separator is refused there. -/
def quotedBreaks : (atStart : Bool) → List Char → Except Fault (List Char × Nat)
  | _, [] => .ok ([], 0)
  | atStart, c :: r =>
    if atStart && isVeiledStart (c :: r) then .error .unreadable
    else if atStart && isSeparator (c :: r) then .error .malformed
    else if isSpace c || (c == '\r' && peek 0 r == '\n') then
      (quotedBreaks false r).map fun (bs, n) => (bs, n + 1)
    else match breakAt? [c] with
      | some (b, _) => (quotedBreaks true r).map fun (bs, n) => (b :: bs, n + 1)
      | none => .ok ([], 0)

def folded (first : Char) (more : List Char) : List Char :=
  if first ≠ '\n' then first :: more
  else if more.isEmpty then [' ']
  else more

/-- A piece of a scalar: its text, and how many characters it takes after its first one. -/
abbrev Piece := List Code × Nat

def quotedGap (s : List Char) : Except Fault Piece :=
  let blanks := s.takeWhile isSpace
  let after := s.dropWhile isSpace
  match breakAt? after with
  | some (b, k) =>
    (quotedBreaks true (after.drop k)).map fun (bs, n) =>
      (Code.ofChars (folded b bs), blanks.length + k + n - 1)
  | none =>
    if endsText (peek 0 after) then .error (.before after) else .ok (Code.ofChars blanks, blanks.length - 1)

def escapes : List (Char × Char) :=
  [('0', '\x00'), ('a', '\x07'), ('b', '\x08'), ('t', '\t'), ('\t', '\t'), ('n', '\n'), ('v', '\x0B'),
    ('f', '\x0C'), ('r', '\r'), ('e', '\x1B'), (' ', ' '), ('"', '"'), ('\\', '\\'), ('/', '/'),
    ('N', '\x85'), ('_', '\xA0'), ('L', '\u2028'), ('P', '\u2029')]

def escapeWidth? (c : Char) : Option Nat :=
  if c == 'x' then some 2
  else if c == 'u' then some 4
  else if c == 'U' then some 8
  else none

def codeOf (n : Nat) : Except Fault Code :=
  if 0x7FFFFFFF < n then .error .hugeCode
  else if 0x10FFFF < n then .error .badCode
  else .ok (.ofNat n)

def escapedCode (width : Nat) (s : List Char) : Except Fault Code :=
  let digits := (s.take width).takeWhile fun c => (digitValue? c).isSome
  if digits.length < width then .error (.before (s.drop digits.length))
  else codeOf ((natOfDigits? 16 digits).getD 0)

def quotedEscape : List Char → Except Fault Piece
  | [] => .error .malformed
  | e :: r =>
    match escapes.lookup e with
    | some c => .ok ([.char c], 1)
    | none =>
      match escapeWidth? e with
      | some width => (escapedCode width r).map fun c => ([c], width + 1)
      | none =>
        match breakAt? (e :: r) with
        | some (_, k) =>
          (quotedBreaks true ((e :: r).drop k)).map fun (bs, n) => (Code.ofChars bs, k + n)
        | none => .error (.before (e :: r))

def quotedPiece (double : Bool) : List Char → Except Fault (Option Piece)
  | [] => .error .malformed
  | c :: r =>
    if c == veil then .error .unreadable
    else if c == '"' && double then .ok none
    else if c == '\x27' && !double then
      if peek 0 r == '\x27' then .ok (some ([.char '\x27'], 1)) else .ok none
    else if c == '\\' && double then (quotedEscape r).map some
    else if isSpace c || isBreak c then (quotedGap (c :: r)).map some
    else .ok (some ([.char c], 0))

/-- The text up to the closing quote and how many characters it takes with the quote; the first
`skip` characters are already read. -/
def quotedFrom (double : Bool) : (skip : Nat) → List Char → Except Fault (List Code × Nat)
  | _, [] => .error .malformed
  | skip + 1, _ :: r => (quotedFrom double skip r).map fun (t, n) => (t, n + 1)
  | 0, c :: r =>
    match quotedPiece double (c :: r) with
    | .error f => .error f
    | .ok none => .ok ([], 1)
    | .ok (some (text, more)) => (quotedFrom double more r).map fun (t, n) => (text ++ t, n + 1)

end LeakScan.Yaml
