import LeakScan.Number.Binary64
import LeakScan.Text.Lines
import LeakScan.Text.Utf8

namespace LeakScan.Text

structure Stream where
  /-- The bytes that are not taken yet. -/
  bytes : List UInt8
  /-- The first bytes of a character that is cut. -/
  waiting : List UInt8 := []
  /-- A carriage return waits. -/
  held : Bool := false
  /-- What is decoded but not given out. -/
  ready : List Char := []
  /-- How many bytes a character took in the last chunk. -/
  width : Binary64 := .zero false

namespace Stream

def chunkSize : Nat := 8192

/-- Whether the last bytes at hand are the first two of a surrogate's three. They wait for the
third, though they can begin no character. -/
def isCutSurrogate : List UInt8 → Bool
  | [a, b] => a == 0xED && 0xA0 ≤ b && b ≤ 0xBF
  | _ => false

def isCut (e : Utf8Failure) (bytes : List UInt8) : Bool :=
  e.fault == .unexpectedEnd || isCutSurrogate (bytes.drop e.position)

/-- Decodes the bytes at hand: their text, and the bytes of a character that is cut. At the end of a
file none may be. -/
def decode (atEnd : Bool) (bytes : List UInt8) : Except Utf8Failure (List Char × List UInt8) :=
  match decodeUtf8 bytes with
  | .ok cs => .ok (cs, [])
  | .error e =>
    if !atEnd && isCut e bytes then
      (decodeUtf8 (bytes.take e.position)).map fun cs => (cs, bytes.drop e.position)
    else .error e

/-- Makes line ends uniform and keeps a carriage return at the end back. -/
def lineEnds (atEnd held : Bool) (cs : List Char) : List Char × Bool :=
  let released := held && (atEnd || !cs.isEmpty)
  let cs := if released then '\r' :: cs else cs
  if !atEnd && cs.getLast? == some '\r' then (uniformLineEnds cs.dropLast, true)
  else (uniformLineEnds cs, held && !released)

/-- Takes one chunk, large enough for `count` characters of the last chunk's width. The answer says
whether the file may go on. -/
def fill (s : Stream) (count : Nat) : Except Utf8Failure (Bool × Stream) :=
  let chunk := s.bytes.take (max chunkSize (s.width.scale count).floor)
  let atEnd := chunk.isEmpty
  match decode atEnd (s.waiting ++ chunk) with
  | .error e => .error e
  | .ok (cs, waiting) =>
    let (cs, held) := lineEnds atEnd s.held cs
    .ok (!(atEnd && cs.isEmpty), {
      bytes := s.bytes.drop chunk.length
      waiting := waiting
      held := held
      ready := s.ready ++ cs
      width := if cs.isEmpty then .zero false else .ofIntQuotient chunk.length cs.length })

def next (count : Nat) : (fuel : Nat) → Stream → Except Utf8Failure (List Char × Stream)
  | 0, s => .ok (s.ready.take count, { s with ready := s.ready.drop count })
  | fuel + 1, s =>
    let missing := count - s.ready.length
    if missing = 0 then .ok (s.ready.take count, { s with ready := s.ready.drop count })
    else match s.fill missing with
      | .error e => .error e
      | .ok (true, s) => next count fuel s
      | .ok (false, s) => .ok (s.ready, { s with ready := [] })

def portionsFrom (count : Nat) : (fuel : Nat) → Stream → List (List Char) × Option Utf8Failure
  | 0, _ => ([], none)
  | fuel + 1, s =>
    match s.next count (s.bytes.length + 2) with
    | .error e => ([], some e)
    | .ok ([], _) => ([], none)
    | .ok (cs, s) =>
      let (more, fault) := portionsFrom count fuel s
      (cs :: more, fault)

/-- The text of a file in portions of `count` characters, and what ends it before its end. -/
def portions (count : Nat) (bytes : List UInt8) : List (List Char) × Option Utf8Failure :=
  portionsFrom count (bytes.length + 1) { bytes := bytes }

end Stream

end LeakScan.Text
