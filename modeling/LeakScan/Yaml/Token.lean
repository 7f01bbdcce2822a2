import LeakScan.Yaml.Fault

namespace LeakScan.Yaml

open Text (Code)

inductive Directive where
  | version (major : Nat)
  | handle (name start : String)
  /-- Any other directive; it is passed over. -/
  | other
deriving DecidableEq, Repr

inductive Token where
  | directive (d : Directive)
  | documentStart
  | documentEnd
  | blockSequence
  | blockMapping
  | blockEnd
  | flowSequence
  | flowSequenceEnd
  | flowMapping
  | flowMappingEnd
  | item
  | comma
  | key
  | value
  | alias (name : String)
  | anchor (name : String)
  /-- A tag with the handle before it; one in angle brackets has none. -/
  | tag (handle : Option String) (suffix : String)
  | scalar (text : List Code) (plain : Bool)
  | finish
  /-- The place of the next token, and why it cannot be read. -/
  | broken (f : Fault)
deriving DecidableEq, Repr

end LeakScan.Yaml
