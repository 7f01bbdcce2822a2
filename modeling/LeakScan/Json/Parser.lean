import LeakScan.Json.Raw
import LeakScan.Number.Reading

namespace LeakScan.Json

open Text (Code)

inductive ReadFault where
  | malformed
  | tooManyDigits
  | tooDeep
deriving DecidableEq, Repr

structure Limits where
  /-- The most digits of an integer. -/
  digits : Option Nat := none
  /-- The most brackets around a value. -/
  depth : Option Nat := none

def exceeds (limit : Option Nat) (count : Nat) : Bool :=
  match limit with
  | some n => n < count
  | none => false

def isBlank (c : Char) : Bool := c == ' ' || c == '\t' || c == '\n' || c == '\r'

def skipBlanks (s : List Code) : List Code := s.dropWhile fun c => c.char?.any isBlank

def shortEscape? (c : Char) : Option Char :=
  match c with
  | '"' => some '"'
  | '\\' => some '\\'
  | '/' => some '/'
  | 'b' => some '\x08'
  | 'f' => some '\x0c'
  | 'n' => some '\n'
  | 'r' => some '\r'
  | 't' => some '\t'
  | _ => none

inductive Piece where
  | code (c : Code)
  | unit (n : Nat)

def joined : List Piece → List Code
  | [] => []
  | .code c :: r => c :: joined r
  | .unit high :: .unit low :: r =>
    match Code.paired? high low with
    | some c => .char c :: joined r
    | none => Code.ofNat high :: joined (.unit low :: r)
  | .unit n :: r => Code.ofNat n :: joined r

def unit? (digits : List Code) : Option Nat := (Code.chars? digits).bind (natOfDigits? 16)

/-- The pieces of a quoted text up to its closing quote, and what follows the quote. -/
def pieces? : List Code → Option (List Piece × List Code)
  | [] => none
  | .char '"' :: r => some ([], r)
  | .char '\\' :: .char 'u' :: a :: b :: c :: d :: r =>
    match unit? [a, b, c, d], pieces? r with
    | some n, some (ps, rest) => some (.unit n :: ps, rest)
    | _, _ => none
  | .char '\\' :: e :: r =>
    match e.char?.bind shortEscape?, pieces? r with
    | some c, some (ps, rest) => some (.code (.char c) :: ps, rest)
    | _, _ => none
  | c :: r =>
    if c.toNat < 0x20 ∨ c.is '\\' then none
    else match pieces? r with
      | some (ps, rest) => some (.code c :: ps, rest)
      | none => none

def quotedText (s : List Code) : Except ReadFault (List Code × List Code) :=
  match pieces? s with
  | some (ps, rest) => .ok (joined ps, rest)
  | none => .error .malformed

def spanDigits : List Code → List Char × List Code
  | .char c :: r =>
    if c.isDigit then
      let (ds, rest) := spanDigits r
      (c :: ds, rest)
    else ([], .char c :: r)
  | s => ([], s)

/-- The digits of a number's whole part: zero alone, or digits that do not start with zero. -/
def wholeDigits? : List Code → Option (List Char × List Code)
  | .char '0' :: r => some (['0'], r)
  | s =>
    let (ds, rest) := spanDigits s
    if ds.isEmpty then none else some (ds, rest)

/-- The places after a point, if a point with a digit follows. -/
def places : List Code → List Char × List Code
  | .char '.' :: r =>
    let (ds, rest) := spanDigits r
    if ds.isEmpty then ([], .char '.' :: r) else ('.' :: ds, rest)
  | s => ([], s)

def powerSign : List Code → List Char × List Code
  | .char '+' :: r => (['+'], r)
  | .char '-' :: r => (['-'], r)
  | s => ([], s)

def power : List Code → List Char × List Code
  | .char e :: r =>
    if e = 'e' ∨ e = 'E' then
      let (sign, t) := powerSign r
      let (ds, rest) := spanDigits t
      if ds.isEmpty then ([], .char e :: r) else ('e' :: sign ++ ds, rest)
    else ([], .char e :: r)
  | s => ([], s)

def numberSign : List Code → List Char × List Code
  | .char '-' :: r => (['-'], r)
  | s => ([], s)

def numberValue (limits : Limits) (sign whole tail : List Char) : Except ReadFault Raw :=
  if tail.isEmpty then
    if exceeds limits.digits whole.length then .error .tooManyDigits
    else match intOfDigits? (sign ++ whole) with
      | some n => .ok (.int n)
      | none => .error .malformed
  else match Binary64.ofText? (sign ++ whole ++ tail) with
    | some x => .ok (.real x)
    | none => .error .malformed

def number (limits : Limits) (s : List Code) : Except ReadFault (Raw × List Code) :=
  let (sign, body) := numberSign s
  match wholeDigits? body with
  | none => .error .malformed
  | some (whole, r) =>
    let (ps, r) := places r
    let (pw, r) := power r
    (numberValue limits sign whole (ps ++ pw)).map fun v => (v, r)

def words : List (List Code × Raw) :=
  [(Code.ofChars "null".toList, .null), (Code.ofChars "true".toList, .bool true),
    (Code.ofChars "false".toList, .bool false), (Code.ofChars "NaN".toList, .real .nan),
    (Code.ofChars "Infinity".toList, .real (.infinite false)),
    (Code.ofChars "-Infinity".toList, .real (.infinite true))]

def word? (s : List Code) : Option (Raw × List Code) :=
  (words.find? fun w => w.1.isPrefixOf s).map fun w => (w.2, s.drop w.1.length)

mutual

/-- A value at the start of a text, and what follows it. `depth` brackets are open around it. Each
nested step uses up one unit of `fuel`. -/
def value (limits : Limits) : (fuel depth : Nat) → List Code → Except ReadFault (Raw × List Code)
  | 0, _, _ => .error .malformed
  | fuel + 1, depth, s =>
    match s with
    | .char '"' :: r => (quotedText r).map fun t => (.text t.1, t.2)
    | .char '[' :: r =>
      if exceeds limits.depth (depth + 1) then .error .tooDeep
      else match skipBlanks r with
        | .char ']' :: t => .ok (.list [], t)
        | t => (items limits fuel (depth + 1) t).map fun p => (.list p.1, p.2)
    | .char '\x7b' :: r =>
      if exceeds limits.depth (depth + 1) then .error .tooDeep
      else match skipBlanks r with
        | .char '\x7d' :: t => .ok (.record [], t)
        | t => (members limits fuel (depth + 1) t).map fun p => (.record p.1, p.2)
    | _ =>
      match word? s with
      | some w => .ok w
      | none => number limits s

def items (limits : Limits) :
    (fuel depth : Nat) → List Code → Except ReadFault (List Raw × List Code)
  | 0, _, _ => .error .malformed
  | fuel + 1, depth, s =>
    match value limits fuel depth s with
    | .error e => .error e
    | .ok (v, r) =>
      match skipBlanks r with
      | .char ']' :: t => .ok ([v], t)
      | .char ',' :: t => (items limits fuel depth (skipBlanks t)).map fun p => (v :: p.1, p.2)
      | _ => .error .malformed

def members (limits : Limits) :
    (fuel depth : Nat) → List Code → Except ReadFault (List (List Code × Raw) × List Code)
  | 0, _, _ => .error .malformed
  | fuel + 1, depth, s =>
    match s with
    | .char '"' :: r =>
      match quotedText r with
      | .error e => .error e
      | .ok (k, r) =>
        match skipBlanks r with
        | .char ':' :: t =>
          match value limits fuel depth (skipBlanks t) with
          | .error e => .error e
          | .ok (v, t) =>
            match skipBlanks t with
            | .char '\x7d' :: u => .ok ([(k, v)], u)
            | .char ',' :: u =>
              (members limits fuel depth (skipBlanks u)).map fun p => ((k, v) :: p.1, p.2)
            | _ => .error .malformed
        | _ => .error .malformed
    | _ => .error .malformed

end

/-- The value of a whole text. A bracket may take two steps: one for what it opens and one for the
first item in it. -/
def read (limits : Limits) (s : List Code) : Except ReadFault Raw :=
  match value limits (2 * s.length + 2) 0 (skipBlanks s) with
  | .error e => .error e
  | .ok (v, r) => if (skipBlanks r).isEmpty then .ok v else .error .malformed

/-- The value of a text, without limits. Halves of pairs become the replacement character. -/
def parse? (s : List Char) : Option Json :=
  (read {} (Code.ofChars s)).toOption.map Raw.toJson

end LeakScan.Json
