import LeakScan.Yaml.Document
import LeakScan.Yaml.Merge

namespace LeakScan.Yaml

open Text (Code)

inductive Object where
  | plain (v : Value)
  /-- The common value of what is no number. -/
  | commonNan
  /-- A collection that is not opened yet. -/
  | closed
  | list (items : List Nat)
  | map (entries : List (Nat × Nat))
  | set (members : List Nat)
  | pairs (entries : List (Nat × Nat))

namespace Object

def isKey : Object → Bool
  | plain v => v.isKey
  | commonNan => true
  | _ => false

/-- Whether two objects are one key. What is no number is one key with itself alone. -/
def sameKey : Object → Object → Bool
  | commonNan, commonNan => true
  | plain (.real .nan), plain (.real .nan) => false
  | plain v, plain w => v.sameKey w
  | _, _ => false

end Object

/-- The text of a node where a scalar is asked for: a mapping gives its default value, which takes one
of the calls that are left. -/
def Graph.text (g : Graph) : (calls : Nat) → (n : Nat) → Except Fault (List Code)
  | 0, _ => .error .tooDeep
  | calls + 1, n =>
    match g.content n with
    | .scalar s => .ok s
    | .list _ => .error .malformed
    | .mapping es =>
      match es.find? fun e => g.tag e.1 == .default with
      | some e => g.text calls e.2
      | none => .error .malformed

def Graph.isMapping (g : Graph) (n : Nat) : Bool :=
  match g.content n with
  | .mapping _ => true
  | _ => false

def Tag.isScalar : Tag → Bool
  | merge => false
  | default => false
  | other => false
  | _ => true

def Graph.scalar (g : Graph) (n : Nat) : Except Fault Object :=
  if !(g.tag n).isScalar then .error .malformed
  else match g.text callLimit n with
    | .error f => .error f
    | .ok s =>
      match g.tag n with
      | .timestamp => if g.isMapping n then .error .notText else (stampOf s).map .plain
      | .float => (realOf s).map fun x => if isCommonNan s then .commonNan else .plain (.real x)
      | tag => (valueOf tag s).map .plain

structure Building where
  graph : Graph
  /-- The objects of the nodes that have been met. -/
  objects : Array (Option Object)
  /-- The collections that have been met, in their order. -/
  met : Array Nat

namespace Building

def object? (b : Building) (n : Nat) : Option Object := (b.objects[n]?).join

def setObject (b : Building) (n : Nat) (o : Object) : Building :=
  { b with objects := b.objects.setIfInBounds n (some o) }

def isCollection : Tag → Bool
  | .list => true
  | .map => true
  | .set => true
  | .pairs => true
  | _ => false

def meet (b : Building) (n : Nat) : Except Fault Building :=
  if (b.object? n).isSome then .ok b
  else if isCollection (b.graph.tag n) then
    .ok { b.setObject n .closed with met := b.met.push n }
  else (b.graph.scalar n).map (b.setObject n)

def isKey (b : Building) (n : Nat) : Bool :=
  match b.object? n with
  | some o => o.isKey
  | none => false

/-- Meets keys and values in turn. A key has to be fit for one before its value is met. -/
def meetEntries : List (Nat × Nat) → Building → Except Fault Building
  | [], b => .ok b
  | (k, v) :: r, b =>
    match b.meet k with
    | .error f => .error f
    | .ok b =>
      if !b.isKey k then .error .malformed
      else match b.meet v with
        | .error f => .error f
        | .ok b => meetEntries r b

def pairOf? (g : Graph) (n : Nat) : Option (Nat × Nat) :=
  match g.content n with
  | .mapping [e] => some e
  | _ => none

def meetPairs : List Nat → Building → Except Fault (List (Nat × Nat) × Building)
  | [], b => .ok ([], b)
  | n :: ns, b =>
    match pairOf? b.graph n with
    | none => .error .malformed
    | some e =>
      match b.meet e.1 with
      | .error f => .error f
      | .ok b =>
        match b.meet e.2 with
        | .error f => .error f
        | .ok b => (meetPairs ns b).map fun (es, b) => (e :: es, b)

def sameKey (b : Building) (m n : Nat) : Bool :=
  m == n || match b.object? m, b.object? n with
    | some o, some p => o.sameKey p
    | _, _ => false

def setEntry (b : Building) (key value : Nat) : List (Nat × Nat) → List (Nat × Nat)
  | [] => [(key, value)]
  | (k, v) :: r => if b.sameKey k key then (k, value) :: r else (k, v) :: setEntry b key value r

def distinct (b : Building) (es : List (Nat × Nat)) : List (Nat × Nat) :=
  es.foldl (fun done e => b.setEntry e.1 e.2 done) []

def openEntries (b : Building) (n : Nat) : Except Fault (List (Nat × Nat) × Building) :=
  match b.graph.flatten n with
  | .error f => .error f
  | .ok g =>
    let es := g.entries n
    (meetEntries es { b with graph := g }).map fun b => (b.distinct es, b)

def openNode (b : Building) (n : Nat) : Except Fault Building :=
  match b.graph.tag n, b.graph.content n with
  | .list, .list items => (items.foldlM meet b).map (·.setObject n (.list items))
  | .map, .mapping _ => (b.openEntries n).map fun (es, b) => b.setObject n (.map es)
  | .set, .mapping _ => (b.openEntries n).map fun (es, b) => b.setObject n (.set (es.map (·.1)))
  | .pairs, .list items => (meetPairs items b).map fun (es, b) => b.setObject n (.pairs es)
  | _, _ => .error .malformed

def openFrom : (fuel : Nat) → (next : Nat) → Building → Except Fault Building
  | 0, _, b => .ok b
  | fuel + 1, next, b =>
    match b.met[next]? with
    | none => .ok b
    | some n =>
      match b.openNode n with
      | .error f => .error f
      | .ok b => openFrom fuel (next + 1) b

def ofGraph (g : Graph) (root : Nat) : Except Fault Building :=
  let start : Building := ⟨g, Array.replicate g.nodes.size none, #[]⟩
  match start.meet root with
  | .error f => .error f
  | .ok b => openFrom (g.nodes.size + 1) 0 b

end Building

end LeakScan.Yaml
