import LeakScan.Page.Markup

namespace LeakScan.Page

open Text

/-- Whether `c` is the small letter `a` in either case, as end tags of raw text are sought. -/
def foldsTo (a c : Char) : Bool :=
  c.toLower == a || (a == 's' && c == '\u017F') || (a == 'i' && (c == '\u0130' || c == '\u0131'))

/-- An end tag of raw text. One with letters beyond ASCII is sought but does not count. -/
structure RawEnd where
  text : List Char
  counts : Bool
  rest : List Char

def rawEnd? (name : List Char) : List Char → Option RawEnd
  | '<' :: '/' :: s =>
    let t := s.dropWhile isBlank
    let word := t.take name.length
    let same := word.length == name.length &&
      (name.zip word).all fun p => foldsTo p.1 p.2
    match same, (t.drop name.length).dropWhile isBlank with
    | true, '>' :: r =>
      some {
        text := '<' :: '/' :: s.take (s.length - r.length)
        counts := word.all Char.isAlpha
        rest := r }
    | _, _ => none
  | _ => none

def findRawEnd (name : List Char) : List Char → Option (List Char × RawEnd)
  | [] => none
  | c :: r =>
    match rawEnd? name (c :: r) with
    | some e => some ([], e)
    | none => (findRawEnd name r).map fun p => (c :: p.1, p.2)

/-- The content of raw text, and what follows its end tag. What stands behind the last end tag that
was sought is lost if no end tag counts. -/
def rawText (name : List Char) : (fuel : Nat) → List Char → List Char × Option (List Char)
  | 0, _ => ([], none)
  | fuel + 1, s =>
    match findRawEnd name s with
    | none => ([], none)
    | some (before, e) =>
      if e.counts then (before, some e.rest)
      else
        let more := rawText name fuel e.rest
        (before ++ e.text ++ more.1, more.2)

def voidElements : List String :=
  ["area", "base", "br", "col", "embed", "hr", "img", "input", "keygen", "link", "menuitem", "meta",
    "param", "source", "track", "wbr", "basefont", "bgsound", "command", "frame", "image", "isindex",
    "nextid", "spacer"]

def keepsBlanks (name : String) : Bool := name == "pre" || name == "textarea"

/-- The elements that are open, the innermost first, and the void elements whose end is still due.
-/
structure Outline where
  opened : List String := []
  due : List String := []
deriving DecidableEq, Repr

namespace Outline

/-- Closes open elements back to the nearest one of a name; without one nothing happens. -/
def close (o : Outline) (name : String) : Outline :=
  if name ∈ o.opened then { o with opened := (o.opened.dropWhile (· != name)).drop 1 } else o

def endTag (o : Outline) (name : String) : Outline :=
  if name ∈ o.due then { o with due := o.due.erase name } else o.close name

def startTag (o : Outline) (name : String) (closed : Bool) : Outline :=
  let o' := { o with opened := name :: o.opened }
  if closed then o'.endTag name
  else if name ∈ voidElements then { o'.close name with due := name :: o.due }
  else o'

def inPreformatted (o : Outline) : Bool := o.opened.any keepsBlanks

end Outline

def scriptContent (o : Outline) (content : List Char) : List Char :=
  if o.inPreformatted || !content.all isAsciiBlank then content
  else if content.contains '\n' then ['\n']
  else if content.isEmpty then []
  else [' ']

/-- The scripts of the rest of a page. A construct without end is incomplete at first; the text is
then read again from there in a last run, `final`, that takes it for mere text. Each step uses up
one unit of `fuel`. -/
def scriptsFrom : (fuel : Nat) → (final : Bool) → Outline → List Char →
    Except Fault (List (List Char))
  | 0, _, _, _ => .ok []
  | _, _, _, [] => .ok []
  | fuel + 1, final, o, c :: r =>
    if c = '<' then
      match construct? r with
      | none => .ok []
      | some .incomplete => scriptsFrom fuel true o (resume r)
      | some (.refused f) => .error f
      | some (.skipped rest) => scriptsFrom fuel final o rest
      | some (.closeTag name rest) => scriptsFrom fuel final (o.endTag name) rest
      | some (.openTag name closed rest) =>
        let o' := o.startTag name closed
        if !closed && (name == "script" || name == "style") then
          let raw := rawText name.toList (rest.length + 1) rest
          let found := if name == "script" then [scriptContent o' raw.1] else []
          match raw.2 with
          | none => .ok found
          | some rest => (scriptsFrom fuel final (o'.endTag name) rest).map (found ++ ·)
        else scriptsFrom fuel final o' rest
    else if c = '&' then
      match reference r with
      | .passed rest => scriptsFrom fuel final o rest
      | .unread rest => if final then .ok [] else scriptsFrom fuel true o rest
      | .refused f => .error f
    else scriptsFrom fuel final o r

/-- The contents of the scripts of a page that have any, in page order. -/
def scripts (page : List Char) : Except Fault (List (List Char)) :=
  (scriptsFrom (2 * page.length + 2) false {} page).map fun ss => ss.filter fun s => !s.isEmpty

def joinScripts : List (List Char) → List Char
  | [] => []
  | [s] => s
  | s :: ss => s ++ '\n' :: joinScripts ss

end LeakScan.Page
