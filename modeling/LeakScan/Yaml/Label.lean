import LeakScan.Number.Reading
import LeakScan.Text.Utf8
import LeakScan.Yaml.Block
import LeakScan.Yaml.Token

namespace LeakScan.Yaml

def endsAnchor (c : Char) : Bool := endsWord c || "?:,]\x7d%@\x60".toList.contains c

/-- A name of at least one character, and the place after it. -/
def name (c : Cursor) : Except Fault (String × Cursor) :=
  match c.rest.takeWhile isNameChar with
  | [] => .error (.before c.rest)
  | cs => .ok (String.ofList cs, c.forward cs.length)

def anchorName (c : Cursor) : Except Fault (String × Cursor) :=
  match name c with
  | .error f => .error f
  | .ok (s, c) => if endsAnchor c.head then .ok (s, c) else .error .malformed

def isTagChar (c : Char) : Bool :=
  isNameChar c || ";/?:@&=+$,.!~*'()[]%".toList.contains c

def escapedByte : List Char → Except Fault UInt8
  | a :: b :: _ =>
    match digitValue? a, digitValue? b with
    | none, _ => .error (.before [a])
    | _, none => .error (.before [b])
    | some m, some n => .ok (m * 16 + n).toUInt8
  | s => .error (.before (s.drop 1))

/-- The bytes that a tag is written with, and how many characters they take. The first `skip` of
them are already read. -/
def tagBytes : (skip : Nat) → List Char → Except Fault (List UInt8 × Nat)
  | _, [] => .ok ([], 0)
  | skip + 1, _ :: r => (tagBytes skip r).map fun (bs, n) => (bs, n + 1)
  | 0, c :: r =>
    if c == '%' then
      match escapedByte r with
      | .error f => .error f
      | .ok b => (tagBytes 2 r).map fun (bs, n) => (b :: bs, n + 1)
    else if isTagChar c then (tagBytes 0 r).map fun (bs, n) => (c.toNat.toUInt8 :: bs, n + 1)
    else .ok ([], 0)

def tagText (c : Cursor) : Except Fault (String × Cursor) :=
  match tagBytes 0 c.rest with
  | .error f => .error f
  | .ok ([], _) => .error (.before c.rest)
  | .ok (bytes, n) =>
    match Text.decodeUtf8 bytes with
    | .ok text => .ok (String.ofList text, c.forward n)
    | .error _ => .error .malformed

/-- A handle: an exclamation mark alone before a blank, or a name between two of them. -/
def tagHandle (c : Cursor) : Except Fault (String × Cursor) :=
  if c.head != '!' then .error (.before c.rest)
  else if peek 1 c.rest == ' ' then .ok ("!", c.forward 1)
  else
    let cs := (c.rest.drop 1).takeWhile isNameChar
    if peek (cs.length + 1) c.rest == '!' then
      .ok ("!" ++ String.ofList cs ++ "!", c.forward (cs.length + 2))
    else .error (.before (c.rest.drop (cs.length + 1)))

/-- Whether a second exclamation mark stands in the word. The whole word is looked at if none does.
-/
def hasHandle (s : List Char) : Except Fault Bool :=
  let word := (s.drop 1).takeWhile (! endsTag ·)
  if word.contains '!' then .ok true
  else if peek (word.length + 1) s == veil then .error .unreadable
  else .ok false

def tagWords (c : Cursor) : Except Fault (Option String × String × Cursor) :=
  let next := peek 1 c.rest
  if next == '<' then
    match tagText (c.forward 2) with
    | .error f => .error f
    | .ok (s, c) => if c.head == '>' then .ok (none, s, c.step) else .error (.before c.rest)
  else if endsWord next then .ok (none, "!", c.step)
  else
    match hasHandle c.rest with
    | .error f => .error f
    | .ok withHandle =>
      match if withHandle then tagHandle c else .ok ("!", c.step) with
      | .error f => .error f
      | .ok (handle, c) => (tagText c).map fun (s, c) => (some handle, s, c)

def tag (c : Cursor) : Except Fault (Token × Cursor) :=
  match tagWords c with
  | .error f => .error f
  | .ok (handle, s, c) => if endsTag c.head then .ok (.tag handle s, c) else .error .malformed

def number (c : Cursor) : Except Fault (Nat × Cursor) :=
  let cs := c.rest.takeWhile Char.isDigit
  let after := c.forward cs.length
  if cs.isEmpty || after.isVeiled then .error (.before after.rest)
  else if digitLimit < cs.length then .error (.tooManyDigits cs.length)
  else .ok ((natOfDigits? 10 cs).getD 0, after)

def versionWords (c : Cursor) : Except Fault (Directive × Cursor) :=
  match number (c.skip (· == ' ')) with
  | .error f => .error f
  | .ok (major, c) =>
    if c.head != '.' then .error (.before c.rest)
    else match number c.step with
      | .error f => .error f
      | .ok (_, c) => if endsTag c.head then .ok (.version major, c) else .error .malformed

def handleWords (c : Cursor) : Except Fault (Directive × Cursor) :=
  match tagHandle (c.skip (· == ' ')) with
  | .error f => .error f
  | .ok (handle, c) =>
    if c.head != ' ' then .error (.before c.rest)
    else match tagText (c.skip (· == ' ')) with
      | .error f => .error f
      | .ok (s, c) => if endsTag c.head then .ok (.handle handle s, c) else .error .malformed

def directive (c : Cursor) : Except Fault (Token × Cursor) :=
  match name c with
  | .error f => .error f
  | .ok (s, c) =>
    if !endsTag c.head then .error .malformed
    else
      let words := match s with
        | "YAML" => versionWords c
        | "TAG" => handleWords c
        | _ => .ok (.other, c.skip (! endsLine ·))
      match words with
      | .error f => .error f
      | .ok (d, c) => (endOfLine c).map fun c => (.directive d, c)

end LeakScan.Yaml
