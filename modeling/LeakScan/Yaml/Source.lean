import LeakScan.Text.Stream
import LeakScan.Yaml.Cursor

namespace LeakScan.Yaml

structure Source where
  /-- What can be read. If that is not all, the veil stands behind it. -/
  text : List Char
  /-- Why no more can be read. -/
  cause : Option Fault

namespace Source

def blockSize : Nat := 4096

/-- The blocks before the first one with a character that no document may hold, and whether there is
such a block. -/
def sound : List (List Char) → List (List Char) × Bool
  | [] => ([], false)
  | b :: bs =>
    if b.all isAllowed then
      let (more, broken) := sound bs
      (b :: more, broken)
    else ([], true)

def joined : List (List Char) → List (List Char)
  | a :: b :: bs => (a ++ b) :: bs
  | bs => bs

def ofBlocks (blocks : List (List Char)) (fault : Option Fault) : Source :=
  if fault.isSome && blocks.length < 2 then ⟨[veil], fault⟩
  else
    let (good, broken) := sound (joined blocks)
    let cause := if broken then some .malformed else fault
    ⟨good.flatten ++ if cause.isSome then [veil] else [], cause⟩

def blocksOf : (fuel : Nat) → List Char → List (List Char)
  | 0, _ => []
  | fuel + 1, s => if s.isEmpty then [] else s.take blockSize :: blocksOf fuel (s.drop blockSize)

def ofText (s : List Char) : Source := ofBlocks (blocksOf (s.length + 1) s) none

def ofBytes (bytes : List UInt8) : Source :=
  let (blocks, failure) := Text.Stream.portions blockSize bytes
  ofBlocks blocks (failure.map .encoding)

end Source

end LeakScan.Yaml
