import LeakScan.Yaml.Graph
import LeakScan.Yaml.Lexer
import LeakScan.Yaml.Scalar

namespace LeakScan.Yaml

/-- The nodes of a document, and the number of the node that holds all others. An empty stream has
no such node. -/
structure Document where
  graph : Graph
  root : Option Nat

namespace Document

open Text (Code)

/-- Where reading stands: the tokens left, the nodes that the anchors name, all nodes so far, and the
number of the collections that are being read. -/
structure Input where
  tokens : List Token
  anchors : List (String × Nat)
  graph : Graph
  depth : Nat

abbrev Reading (α : Type) := Except Fault (α × Input)

/-- The fault of a stream in which something else was expected. -/
def refusal : List Token → Fault
  | .broken f :: _ => f
  | _ => .malformed

structure Handles where
  starts : List (String × String)

def Handles.default : Handles := ⟨[("!", "!"), ("!!", Tag.schema)]⟩

/-- The name of a tag; a handle that is not known has none. -/
def Handles.name (h : Handles) (handle : Option String) (suffix : String) : Except Fault String :=
  match handle with
  | none => .ok suffix
  | some s =>
    match h.starts.lookup s with
    | some start => .ok (start ++ suffix)
    | none => .error .malformed

structure Labels where
  anchor : Option String
  tag : Option String

/-- The labels at the start of the tokens, in either order. The handle of a tag is looked up when it
is clear whether an anchor follows. -/
def labels (h : Handles) : List Token → Except Fault (Labels × List Token)
  | .anchor a :: .tag handle s :: r => (h.name handle s).map fun t => (⟨some a, some t⟩, r)
  | .anchor a :: r => .ok (⟨some a, none⟩, r)
  | .tag _ _ :: .broken f :: _ => .error f
  | .tag handle s :: .anchor a :: r => (h.name handle s).map fun t => (⟨some a, some t⟩, r)
  | .tag handle s :: r => (h.name handle s).map fun t => (⟨none, some t⟩, r)
  | r => .ok (⟨none, none⟩, r)

/-- The tag of a scalar. The mark that stands for no tag lets the text decide, as for a plain one.
-/
def scalarTag (tag : Option String) (text : List Code) (plain : Bool) : Tag :=
  match tag with
  | none => if plain then .ofCodes text else .str
  | some t => if t = "!" then .ofCodes text else .ofName t

def collectionTag (tag : Option String) (usual : Tag) : Tag :=
  match tag with
  | none => usual
  | some t => if t = "!" then usual else .ofName t

namespace Input

def add (i : Input) (anchor : Option String) (x : Node) : Nat × Input :=
  let (n, g) := i.graph.add x
  (n, { i with
    graph := g
    anchors := match anchor with
      | some name => (name, n) :: i.anchors
      | none => i.anchors })

def isNew (i : Input) (anchor : Option String) : Bool :=
  match anchor with
  | some name => (i.anchors.lookup name).isNone
  | none => true

/-- Adds a collection whose parts are read next. Each collection takes two calls. -/
def enter (i : Input) (anchor : Option String) (x : Node) : Reading Nat :=
  if callLimit < 2 * (i.depth + 1) then .error .tooDeep
  else .ok ({ i with depth := i.depth + 1 }.add anchor x)

def leave (i : Input) (n : Nat) (c : Content) : Input :=
  { i with graph := i.graph.setContent n c, depth := i.depth - 1 }

end Input

/-- Reads a collection, of which the parts are to be read from the tokens at hand. -/
def collection {α : Type} (anchor : Option String) (tag : Tag) (content : List α → Content)
    (parts : Input → Reading (List α)) (i : Input) : Reading Nat :=
  match i.enter anchor ⟨tag, content []⟩ with
  | .error f => .error f
  | .ok (n, i) => (parts i).map fun (xs, i) => (n, i.leave n (content xs))

def vacantBefore (ends : List Token) : List Token → Bool
  | t :: _ => ends.contains t
  | [] => false

inductive Place where
  /-- In brackets: no block collections. -/
  | flow
  | block
  /-- In a block mapping: the items of a list may stand at the mapping's own column. -/
  | field
deriving DecidableEq, Repr

/-- What comes next in brackets: the end, with what follows it, or the tokens of a new member. A
comma stands between members, and may stand before the end. -/
def flowNext (closing : Token) (first : Bool) (tokens : List Token) :
    Option (List Token ⊕ List Token) :=
  let member (r : List Token) : List Token ⊕ List Token :=
    match r with
    | t :: r => if t = closing then .inl r else .inr (t :: r)
    | [] => .inr []
  match tokens with
  | [] => none
  | t :: r =>
    if t = closing then some (.inl r)
    else if first then some (.inr (t :: r))
    else if t = .comma then some (member r)
    else none

/-- The handles that the directives of a document set, and what follows them. A handle is set once,
and only the first version is read. -/
def directives (version : Bool) (starts : List (String × String)) :
    List Token → Except Fault (Handles × List Token)
  | .directive (.version major) :: r =>
    if version || major != 1 then .error .malformed else directives true starts r
  | .directive (.handle name start) :: r =>
    if (starts.lookup name).isSome then .error .malformed
    else directives version ((name, start) :: starts) r
  | .directive .other :: r => directives version starts r
  | r => .ok (⟨starts ++ Handles.default.starts⟩, r)

mutual

def node (h : Handles) : (fuel : Nat) → Place → Input → Reading Nat
  | 0, _, _ => .error .malformed
  | fuel + 1, place, i =>
    match i.tokens with
    | .alias name :: r =>
      match i.anchors.lookup name with
      | some n => .ok (n, { i with tokens := r })
      | none => .error .malformed
    | _ =>
      match labels h i.tokens with
      | .error f => .error f
      | .ok (_, .broken f :: _) => .error f
      | .ok (ls, r) =>
        if i.isNew ls.anchor then content h fuel place ls { i with tokens := r }
        else .error .malformed

/-- Reads what follows the labels. With a label nothing need follow. -/
def content (h : Handles) : (fuel : Nat) → Place → Labels → Input → Reading Nat
  | 0, _, _, _ => .error .malformed
  | fuel + 1, place, ls, i =>
    let scalar (text : List Code) (plain : Bool) (r : List Token) : Nat × Input :=
      { i with tokens := r }.add ls.anchor ⟨scalarTag ls.tag text plain, .scalar text⟩
    let list (r : List Token) (items : Input → Reading (List Nat)) : Reading Nat :=
      collection ls.anchor (collectionTag ls.tag .list) .list items { i with tokens := r }
    let mapping (r : List Token) (entries : Input → Reading (List (Nat × Nat))) : Reading Nat :=
      collection ls.anchor (collectionTag ls.tag .map) .mapping entries { i with tokens := r }
    match i.tokens, place with
    | .scalar text plain :: r, _ => .ok (scalar text plain r)
    | .flowSequence :: r, _ => list r (flowItems h fuel true)
    | .flowMapping :: r, _ => mapping r (flowEntries h fuel true)
    | .item :: r, .field => list (.item :: r) (fieldItems h fuel)
    | .blockSequence :: r, .block => list r (blockItems h fuel)
    | .blockSequence :: r, .field => list r (blockItems h fuel)
    | .blockMapping :: r, .block => mapping r (blockEntries h fuel)
    | .blockMapping :: r, .field => mapping r (blockEntries h fuel)
    | r, _ =>
      if ls.anchor.isSome || ls.tag.isSome then .ok (scalar [] (ls.tag.isNone) r)
      else .error (refusal r)

def nodeUnless (h : Handles) : (fuel : Nat) → (ends : List Token) → Place → Input → Reading Nat
  | 0, _, _, _ => .error .malformed
  | fuel + 1, ends, place, i =>
    if vacantBefore ends i.tokens then .ok (i.add none .empty) else node h fuel place i

def valueUnless (h : Handles) : (fuel : Nat) → (ends : List Token) → Place → Input → Reading Nat
  | 0, _, _, _ => .error .malformed
  | fuel + 1, ends, place, i =>
    match i.tokens with
    | .value :: r => nodeUnless h fuel ends place { i with tokens := r }
    | .broken f :: _ => .error f
    | _ => .ok (i.add none .empty)

def entry (h : Handles) :
    (fuel : Nat) → (keyEnds valueEnds : List Token) → Place → Input → Reading (Nat × Nat)
  | 0, _, _, _, _ => .error .malformed
  | fuel + 1, keyEnds, valueEnds, place, i =>
    match nodeUnless h fuel keyEnds place i with
    | .error f => .error f
    | .ok (k, i) => (valueUnless h fuel valueEnds place i).map fun (v, i) => ((k, v), i)

def blockItems (h : Handles) : (fuel : Nat) → Input → Reading (List Nat)
  | 0, _ => .error .malformed
  | fuel + 1, i =>
    match i.tokens with
    | .item :: r =>
      match nodeUnless h fuel [.item, .blockEnd] .block { i with tokens := r } with
      | .error f => .error f
      | .ok (n, i) => (blockItems h fuel i).map fun (ns, i) => (n :: ns, i)
    | .blockEnd :: r => .ok ([], { i with tokens := r })
    | r => .error (refusal r)

def fieldItems (h : Handles) : (fuel : Nat) → Input → Reading (List Nat)
  | 0, _ => .error .malformed
  | fuel + 1, i =>
    match i.tokens with
    | .item :: r =>
      match nodeUnless h fuel [.item, .key, .value, .blockEnd] .block { i with tokens := r } with
      | .error f => .error f
      | .ok (n, i) => (fieldItems h fuel i).map fun (ns, i) => (n :: ns, i)
    | .broken f :: _ => .error f
    | _ => .ok ([], i)

def blockEntries (h : Handles) : (fuel : Nat) → Input → Reading (List (Nat × Nat))
  | 0, _ => .error .malformed
  | fuel + 1, i =>
    let ends : List Token := [.key, .value, .blockEnd]
    match i.tokens with
    | .key :: r =>
      match entry h fuel ends ends .field { i with tokens := r } with
      | .error f => .error f
      | .ok (e, i) => (blockEntries h fuel i).map fun (es, i) => (e :: es, i)
    | .blockEnd :: r => .ok ([], { i with tokens := r })
    | r => .error (refusal r)

/-- Reads the items of a list in brackets up to its end. A key among them makes a mapping of one
entry. -/
def flowItems (h : Handles) : (fuel : Nat) → (first : Bool) → Input → Reading (List Nat)
  | 0, _, _ => .error .malformed
  | fuel + 1, first, i =>
    match flowNext .flowSequenceEnd first i.tokens with
    | none => .error (refusal i.tokens)
    | some (.inl r) => .ok ([], { i with tokens := r })
    | some (.inr (.key :: r)) =>
      let only (i : Input) : Reading (List (Nat × Nat)) :=
        (entry h fuel [.value, .comma, .flowSequenceEnd] [.comma, .flowSequenceEnd] .flow i).map
          fun (e, i) => ([e], i)
      match collection none .map .mapping only { i with tokens := r } with
      | .error f => .error f
      | .ok (n, i) => (flowItems h fuel false i).map fun (ns, i) => (n :: ns, i)
    | some (.inr r) =>
      match node h fuel .flow { i with tokens := r } with
      | .error f => .error f
      | .ok (n, i) => (flowItems h fuel false i).map fun (ns, i) => (n :: ns, i)

/-- Reads the entries of a mapping in braces up to its end. A node alone is a key without a value.
-/
def flowEntries (h : Handles) : (fuel : Nat) → (first : Bool) → Input → Reading (List (Nat × Nat))
  | 0, _, _ => .error .malformed
  | fuel + 1, first, i =>
    match flowNext .flowMappingEnd first i.tokens with
    | none => .error (refusal i.tokens)
    | some (.inl r) => .ok ([], { i with tokens := r })
    | some (.inr (.key :: r)) =>
      match entry h fuel [.value, .comma, .flowMappingEnd] [.comma, .flowMappingEnd] .flow
          { i with tokens := r } with
      | .error f => .error f
      | .ok (e, i) => (flowEntries h fuel false i).map fun (es, i) => (e :: es, i)
    | some (.inr r) =>
      match node h fuel .flow { i with tokens := r } with
      | .error f => .error f
      | .ok (k, i) =>
        let (v, i) := i.add none .empty
        (flowEntries h fuel false i).map fun (es, i) => ((k, v) :: es, i)

end

def fuelFor (tokens : List Token) : Nat := 5 * tokens.length + 5

def ending (tokens : List Token) : Except Fault Unit :=
  match tokens.dropWhile (· == .documentEnd) with
  | .finish :: _ => .ok ()
  | .directive d :: r =>
    match directives false [] (.directive d :: r) with
    | .error f => .error f
    | .ok (_, r) => .error (refusal r)
  | r => .error (refusal r)

def whole (root : Reading Nat) : Except Fault Document :=
  match root with
  | .error f => .error f
  | .ok (n, i) => (ending i.tokens).map fun _ => ⟨i.graph, some n⟩

def start (tokens : List Token) : Input := ⟨tokens, [], ⟨#[]⟩, 0⟩

def isVacant : List Token → Bool
  | .directive _ :: _ => true
  | .documentStart :: _ => true
  | .documentEnd :: _ => true
  | .finish :: _ => true
  | _ => false

def explicit (tokens : List Token) : Except Fault Document :=
  match directives false [] tokens with
  | .error f => .error f
  | .ok (h, .documentStart :: r) =>
    if isVacant r then whole (.ok ((start r).add none .empty))
    else whole (node h (fuelFor r) .block (start r))
  | .ok (_, r) => .error (refusal r)

def ofTokens (tokens : List Token) : Except Fault Document :=
  match tokens with
  | .finish :: _ => .ok ⟨⟨#[]⟩, none⟩
  | .directive _ :: _ => explicit tokens
  | .documentStart :: _ => explicit tokens
  | _ => whole (node .default (fuelFor tokens) .block (start tokens))

end Document

end LeakScan.Yaml
