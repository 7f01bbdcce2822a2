import LeakScan.Yaml.Object

namespace LeakScan.Yaml

abbrev Known := Array (Option Value)

namespace Building

def valuesBy (value : Nat → Known → Value × Known) : List Nat → Known → List Value × Known
  | [], known => ([], known)
  | n :: ns, known =>
    let (v, known) := value n known
    let (vs, known) := valuesBy value ns known
    (v :: vs, known)

def entriesBy (value : Nat → Known → Value × Known) :
    List (Nat × Nat) → Known → List (Value × Value) × Known
  | [], known => ([], known)
  | (k, v) :: r, known =>
    let (key, known) := value k known
    let (held, known) := value v known
    let (es, known) := entriesBy value r known
    ((key, held) :: es, known)

/-- The value of a node. A collection that lies inside itself, below those of `around`, is not
entered again. Every value is found once. -/
def valueFrom (b : Building) :
    (fuel : Nat) → (around : List Nat) → (n : Nat) → Known → Value × Known
  | 0, _, _, known => (.enclosing, known)
  | fuel + 1, around, n, known =>
    match (known[n]?).join with
    | some v => (v, known)
    | none =>
      if around.contains n then (.enclosing, known)
      else
        let inner := b.valueFrom fuel (n :: around)
        let (v, known) := match b.object? n with
          | some (.plain v) => (v, known)
          | some .commonNan => (.real .nan, known)
          | some (.list items) =>
            let (vs, known) := valuesBy inner items known
            (.list vs, known)
          | some (.map entries) =>
            let (es, known) := entriesBy inner entries known
            (.map es, known)
          | some (.set members) =>
            let (vs, known) := valuesBy inner members known
            (.set vs, known)
          | some (.pairs entries) =>
            let (es, known) := entriesBy inner entries known
            (.list (es.map fun (k, v) => .list [k, v]), known)
          | _ => (.null, known)
        (v, known.setIfInBounds n (some v))

def value (b : Building) (n : Nat) : Value :=
  (b.valueFrom (b.objects.size + 1) [] n (Array.replicate b.objects.size none)).1

end Building

def read (s : Source) : Except Fault Value :=
  match Document.ofTokens (tokens s) with
  | .error f => .error f
  | .ok ⟨_, none⟩ => .ok .null
  | .ok ⟨g, some root⟩ => (Building.ofGraph g root).map fun b => b.value root

end LeakScan.Yaml
