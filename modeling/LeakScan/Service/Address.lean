import LeakScan.Number.Reading

namespace LeakScan.Service

structure Address where
  scheme : List Char
  authority : List Char
  path : List Char
deriving DecidableEq, Repr

namespace Address

def isSchemeChar (c : Char) : Bool := c.isAlphanum || c == '+' || c == '.' || c == '-'

/-- Whether a word may stand before the colon: it starts with a letter, or it is empty. -/
def isScheme : List Char → Bool
  | [] => true
  | c :: r => c.isAlpha && r.all isSchemeChar

/-- The scheme before the first colon, and what follows; an address need not have one. -/
def splitScheme (s : List Char) : List Char × List Char :=
  match s.dropWhile (· != ':') with
  | _ :: r =>
    let word := s.takeWhile (· != ':')
    if isScheme word then (word, r) else ([], s)
  | [] => ([], s)

def splitAuthority (s : List Char) : List Char × List Char :=
  let inAuthority (c : Char) : Bool := c != '/' && c != '?' && c != '#'
  match s with
  | '/' :: '/' :: r => (r.takeWhile inAuthority, r.dropWhile inAuthority)
  | _ => ([], s)

def ofText (s : List Char) : Address :=
  let (scheme, r) := splitScheme s
  let (authority, r) := splitAuthority r
  ⟨scheme, authority, r.takeWhile fun c => c != '?' && c != '#'⟩

def behindLast (mark : Char) (s : List Char) : List Char := (s.reverse.takeWhile (· != mark)).reverse

/-- The host in an authority: the user before it and the number behind it are left out. -/
def host (a : Address) : List Char := (behindLast '@' a.authority).takeWhile (· != ':')

def isWhole (a : Address) : Bool := !a.scheme.isEmpty && !a.host.isEmpty

def segments : List Char → List (List Char)
  | [] => [[]]
  | c :: r =>
    match segments r with
    | p :: ps => if c = '/' then [] :: p :: ps else (c :: p) :: ps
    | [] => [[c]]

/-- The segments without dots; two dots take the segment before them back, but not the root. `done`
holds the segments so far, the last one first. -/
def withoutDots (done : List (List Char)) : List (List Char) → List (List Char)
  | [] => done.reverse
  | ['.'] :: r => withoutDots done r
  | ['.', '.'] :: r => withoutDots (if done = [[]] then done else done.drop 1) r
  | s :: r => withoutDots (s :: done) r

def resolved (path : List Char) : List Char :=
  ['/'].intercalate (withoutDots [] (segments path))

/-- The character of an escaped byte. No known place has one beyond ASCII, so any such byte is shown
as the replacement character. -/
def charOfByte (n : Nat) : Char := if n < 0x80 then Char.ofNat n else '\uFFFD'

def unescaped : List Char → List Char
  | '%' :: a :: b :: r =>
    match natOfDigits? 16 [a, b] with
    | some n => charOfByte n :: unescaped r
    | none => '%' :: unescaped (a :: b :: r)
  | c :: r => c :: unescaped r
  | [] => []

/-- The path below the root of the service, with dots resolved. -/
def target (a : Address) : List Char :=
  if a.isWhole then
    match resolved a.path with
    | [] => ['/']
    | path => path
  else
    match resolved ('/' :: a.path.dropWhile (· == '/')) with
    | [] => ['/']
    | path => path

def place (s : List Char) : List Char := unescaped (unescaped (target (ofText s)))

end Address

end LeakScan.Service
