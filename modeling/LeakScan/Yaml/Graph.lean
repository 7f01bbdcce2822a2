import LeakScan.Text.Code
import LeakScan.Yaml.Tag

namespace LeakScan.Yaml

open Text (Code)

inductive Content where
  | scalar (text : List Code)
  | list (items : List Nat)
  | mapping (entries : List (Nat × Nat))
deriving DecidableEq, Repr

structure Node where
  tag : Tag
  content : Content
deriving DecidableEq, Repr

def Node.empty : Node := ⟨.null, .scalar []⟩

structure Graph where
  nodes : Array Node

namespace Graph

/-- The node with a number; beyond the last one all are empty. -/
def node (g : Graph) (n : Nat) : Node := g.nodes.getD n .empty

def tag (g : Graph) (n : Nat) : Tag := (g.node n).tag

def content (g : Graph) (n : Nat) : Content := (g.node n).content

/-- The entries of a mapping; other nodes have none. -/
def entries (g : Graph) (n : Nat) : List (Nat × Nat) :=
  match g.content n with
  | .mapping es => es
  | _ => []

def add (g : Graph) (x : Node) : Nat × Graph := (g.nodes.size, ⟨g.nodes.push x⟩)

def put (g : Graph) (n : Nat) (x : Node) : Graph := ⟨g.nodes.setIfInBounds n x⟩

def setContent (g : Graph) (n : Nat) (c : Content) : Graph := g.put n { g.node n with content := c }

def setTag (g : Graph) (n : Nat) (t : Tag) : Graph := g.put n { g.node n with tag := t }

end Graph

end LeakScan.Yaml
