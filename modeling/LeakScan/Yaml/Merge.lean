import LeakScan.Yaml.Fault
import LeakScan.Yaml.Graph

namespace LeakScan.Yaml.Graph

def isMerge (g : Graph) (e : Nat × Nat) : Bool := g.tag e.1 == .merge

/-- Takes the first entry under the merge key out of a mapping: what it holds, and the nodes then.
-/
def takeMerge? (g : Graph) (n : Nat) : Option (Nat × Graph) :=
  let es := g.entries n
  match es.find? g.isMerge with
  | some e => some (e.2, g.setContent n (.mapping (es.eraseP g.isMerge)))
  | none => none

def settleKey (g : Graph) (n : Nat) : Graph := if g.tag n == .default then g.setTag n .str else g

/-- A mapping without merge keys: its keys are settled, and entries are put before its own. -/
def settle (g : Graph) (n : Nat) (merged : List (Nat × Nat)) : Graph :=
  let g := (g.entries n).foldl (fun g e => g.settleKey e.1) g
  if merged.isEmpty then g else g.setContent n (.mapping (merged ++ g.entries n))

/-- The entries of the mappings in a list, the last mapping first. `flat` flattens one mapping. -/
def mergedAll (flat : Nat → Graph → Except Fault Graph) :
    List Nat → Graph → Except Fault (List (Nat × Nat) × Graph)
  | [], g => .ok ([], g)
  | n :: ns, g =>
    match g.content n with
    | .mapping _ =>
      match flat n g with
      | .error f => .error f
      | .ok g => (mergedAll flat ns g).map fun (es, h) => (es ++ g.entries n, h)
    | _ => .error .malformed

def mergedIn (flat : Nat → Graph → Except Fault Graph) (n : Nat) (g : Graph) :
    Except Fault (List (Nat × Nat) × Graph) :=
  match g.content n with
  | .mapping _ => (flat n g).map fun g => (g.entries n, g)
  | .list items => mergedAll flat items g
  | .scalar _ => .error .malformed

/-- Takes the merge keys out of a mapping, one after the other; `merged` are the entries from those
already taken out. Each step takes one merge key out of the graph. A mapping that is merged takes one
of the calls that are left. -/
def flattenFrom :
    (fuel calls : Nat) → (merged : List (Nat × Nat)) → (n : Nat) → Graph → Except Fault Graph
  | 0, _, _, _, _ => .error .malformed
  | _ + 1, 0, _, _, _ => .error .tooDeep
  | fuel + 1, calls + 1, merged, n, g =>
    match g.takeMerge? n with
    | none => .ok (g.settle n merged)
    | some (v, g) =>
      match mergedIn (flattenFrom fuel calls []) v g with
      | .error f => .error f
      | .ok (es, g) => flattenFrom fuel (calls + 1) (merged ++ es) n g

def mergeCount (g : Graph) : Nat :=
  g.nodes.foldl (fun n x => match x.content with
    | .mapping es => n + es.countP g.isMerge
    | _ => n) 0

def flatten (g : Graph) (n : Nat) : Except Fault Graph := flattenFrom (g.mergeCount + 1) callLimit [] n g

end LeakScan.Yaml.Graph
