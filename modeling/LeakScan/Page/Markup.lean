import LeakScan.Number.Reading
import LeakScan.Text.Blank
import LeakScan.Text.Lower
import LeakScan.Text.Quoted

namespace LeakScan.Page

open Text

inductive Fault where
  /-- A marked section of no known kind, shown with the blanks behind its name. -/
  | unknownSection (name : List Char)
  /-- A marked section without a name, shown from its beginning on. -/
  | namelessSection (start : List Char)
  /-- A character reference with more digits than an integer may have. -/
  | longReference (digits : Nat)
deriving DecidableEq, Repr

namespace Fault

def refusal (reason : String) : String :=
  "The markup you provided was rejected by the parser. Trying a different parser or a different " ++
    "encoding may help.\n\nOriginal exception(s) from parser:\n AssertionError: " ++ reason

def message : Fault → String
  | unknownSection name =>
    refusal ("unknown status keyword " ++ String.ofList (quotedChars name) ++ " in marked section")
  | namelessSection start =>
    refusal ("expected name token at " ++ String.ofList (quotedChars start))
  | longReference digits => digitLimitMessage digits

end Fault

inductive Construct where
  /-- A start tag; a closed one ends with a slash. -/
  | openTag (name : String) (closed : Bool) (rest : List Char)
  | closeTag (name : String) (rest : List Char)
  /-- A comment, a declaration, or mere text. -/
  | skipped (rest : List Char)
  | incomplete
  | refused (f : Fault)

def isQuote (c : Char) : Bool := c == '"' || c == '\x27'

def endsName (c : Char) : Bool :=
  c == '\t' || c == '\n' || c == '\r' || c == '\x0c' || c == ' ' || c == '/' || c == '>' || c == '\x00'

def behind? (mark : Char) : List Char → Option (List Char)
  | [] => none
  | c :: r => if c = mark then some r else behind? mark r

/-- The blanks and slashes between attributes; a slash right before the end of the tag stays. -/
def skipGap : List Char → List Char
  | [] => []
  | '/' :: '>' :: r => '/' :: '>' :: r
  | c :: r => if isBlank c || c == '/' then skipGap r else c :: r

def startsGap : List Char → Bool
  | [] => false
  | '/' :: '>' :: _ => false
  | c :: _ => isBlank c || c == '/'

def allowsNext (name : List Char) : Bool :=
  match name.getLast? with
  | some c => isQuote c || isBlank c || c == '/'
  | none => false

def inBare (c : Char) : Bool := !isBlank c && c != '>'

structure AttributeValue where
  text : List Char
  /-- The next attribute may follow at once. -/
  next : Bool
  rest : List Char

/-- The value that is written behind the name of an attribute. There is none if no equals sign comes
next, or if its quoted text has no end. -/
def value? (s : List Char) : Option AttributeValue :=
  match s.dropWhile isBlank with
  | '=' :: r =>
    let signs := r.dropWhile (· == '=')
    let value := signs.dropWhile isBlank
    match value with
    | [] => some ⟨[], false, []⟩
    | c :: t =>
      if isQuote c then
        match behind? c t with
        | some rest => some ⟨t.takeWhile (· != c), true, rest⟩
        | none =>
          if signs.head?.any isBlank then some ⟨[], true, value⟩
          else if r.head? = some '=' then
            some ⟨'=' :: value.takeWhile inBare, false, value.dropWhile inBare⟩
          else none
      else some ⟨value.takeWhile inBare, false, value.dropWhile inBare⟩
  | _ => none

/-- One attribute with the gap behind it: its value, what follows, and whether another attribute
may. -/
def attribute? (allowed : Bool) : List Char → Option AttributeValue
  | [] => none
  | c :: r =>
    if allowed && !isBlank c && c != '/' && c != '>' then
      let inName := fun x => !isBlank x && x != '/' && x != '=' && x != '>'
      let name := c :: r.takeWhile inName
      let after := r.dropWhile inName
      let v := (value? after).getD ⟨[], allowsNext name, after⟩
      some ⟨v.text, v.next || startsGap v.rest, skipGap v.rest⟩
    else none

/-- The values of all attributes, and what follows. Each attribute uses up one unit of `fuel`. -/
def attributes : (fuel : Nat) → Bool → List Char → List (List Char) × List Char
  | 0, _, s => ([], s)
  | fuel + 1, allowed, s =>
    match attribute? allowed s with
    | some v =>
      let (more, rest) := attributes fuel v.next v.rest
      (v.text :: more, rest)
    | none => ([], s)

/-- The number of digits of the first decimal reference in a value that has more than an integer
may. -/
def longReference? : List Char → Option Nat
  | [] => none
  | '&' :: '#' :: r =>
    let count := (r.takeWhile Char.isDigit).length
    if digitLimit < count then some count else longReference? r
  | _ :: r => longReference? r

def nameText (cs : List Char) : String := lower (String.ofList cs)

/-- A start tag, from its name on. A tag that stops at a character which cannot stand there is mere
text, though the references in its values are read. -/
def startTag (s : List Char) : Construct :=
  let name := s.takeWhile fun c => !endsName c
  let rest := s.dropWhile fun c => !endsName c
  let (values, after) := attributes s.length (allowsNext name || startsGap rest) (skipGap rest)
  let complete (c : Construct) : Construct :=
    match values.findSome? longReference? with
    | some digits => .refused (.longReference digits)
    | none => c
  match after with
  | '>' :: r => complete (.openTag (nameText name) false r)
  | '/' :: '>' :: r => complete (.openTag (nameText name) true r)
  | [] => .incomplete
  | c :: r =>
    if c.isAlpha || c == '=' || c == '/' then .incomplete else complete (.skipped (c :: r))

def isEndName (c : Char) : Bool :=
  c.isAlphanum || c == '-' || c == '.' || c == ':' || c == '_'

def startsWithLetter : List Char → Bool
  | c :: _ => c.isAlpha
  | [] => false

def endTag (s : List Char) : Construct :=
  match behind? '>' s with
  | none => .incomplete
  | some behindFirst =>
    let t := s.dropWhile isBlank
    let plain := t.takeWhile isEndName
    match (t.dropWhile isEndName).dropWhile isBlank, startsWithLetter t with
    | '>' :: r, true => .closeTag (nameText plain) r
    | _, _ =>
      if startsWithLetter s then
        .closeTag (nameText (s.takeWhile fun c => !endsName c))
          ((behind? '>' (s.dropWhile fun c => !endsName c)).getD [])
      else .skipped behindFirst

def behindComment? : List Char → Option (List Char)
  | [] => none
  | c :: r =>
    match c, r with
    | '-', '-' :: t =>
      match t.dropWhile isBlank with
      | '>' :: u => some u
      | _ => behindComment? r
    | _, _ => behindComment? r

/-- What follows the brackets that end a marked section; the ones of word processors have one. -/
def behindSection? (brackets : Nat) : List Char → Option (List Char)
  | [] => none
  | c :: r =>
    if c = ']' then
      let t := r.dropWhile isBlank
      match brackets, t with
      | 1, '>' :: u => some u
      | 2, ']' :: u =>
        match u.dropWhile isBlank with
        | '>' :: v => some v
        | _ => behindSection? brackets r
      | _, _ => behindSection? brackets r
    else behindSection? brackets r

def isSectionName (c : Char) : Bool := c.isAlphanum || c == '-' || c == '_' || c == '.'

def orIncomplete : Option (List Char) → Construct
  | some r => .skipped r
  | none => .incomplete

def shownLength : Nat := 20

def markedSection (s : List Char) : Construct :=
  if s.isEmpty then .incomplete
  else if startsWithLetter s then
    let name := s.takeWhile isSectionName
    let after := s.dropWhile isSectionName
    let kind := nameText name
    if (after.dropWhile isBlank).isEmpty then .incomplete
    else if kind ∈ ["temp", "cdata", "ignore", "include", "rcdata"] then
      orIncomplete (behindSection? 2 s)
    else if kind ∈ ["if", "else", "endif"] then orIncomplete (behindSection? 1 s)
    else .refused (.unknownSection (name ++ after.takeWhile isBlank))
  else .refused (.namelessSection (("<![".toList ++ s).take shownLength))

def declaration : List Char → Construct
  | '-' :: '-' :: s => orIncomplete (behindComment? s)
  | '[' :: s => markedSection s
  | s => orIncomplete (behind? '>' s)

/-- What an opening bracket begins, or nothing if it stands at the end of the text. -/
def construct? : List Char → Option Construct
  | [] => none
  | c :: r =>
    if c.isAlpha then some (startTag (c :: r))
    else if c = '/' then some (endTag r)
    else if c = '!' then some (declaration r)
    else if c = '?' then some (orIncomplete (behind? '>' r))
    else some (.skipped (c :: r))

/-- Where reading goes on behind a construct that has no end: behind the next closing bracket, or
else at the next opening one, or else at once. -/
def resume (s : List Char) : List Char :=
  match behind? '>' s with
  | some r => r
  | none =>
    match s.dropWhile (· != '<') with
    | [] => s
    | r => r

inductive Reference where
  | passed (rest : List Char)
  /-- A number that cannot be read ends one run of reading. -/
  | unread (rest : List Char)
  | refused (f : Fault)

/-- What follows the number of a reference, if there is one and the text goes on behind it. -/
def numberRest? (s : List Char) : Option (List Char) :=
  let isHex := fun (c : Char) => c.isDigit || ('a' ≤ c && c ≤ 'f') || ('A' ≤ c && c ≤ 'F')
  let stop (digits rest : List Char) : Option (List Char) :=
    match rest with
    | [] => none
    | c :: r =>
      if digits.isEmpty || isHex c then none else if c = ';' then some r else some (c :: r)
  match s with
  | 'x' :: r => stop (r.takeWhile isHex) (r.dropWhile isHex)
  | 'X' :: r => stop (r.takeWhile isHex) (r.dropWhile isHex)
  | _ => stop (s.takeWhile Char.isDigit) (s.dropWhile Char.isDigit)

def reference : List Char → Reference
  | '#' :: r =>
    match numberRest? r with
    | some rest =>
      let count := (r.takeWhile Char.isDigit).length
      if digitLimit < count then .refused (.longReference count) else .passed rest
    | none => .unread (if r.contains ';' then r else '&' :: '#' :: r)
  | s => .passed s

end LeakScan.Page
