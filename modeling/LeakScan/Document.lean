
namespace LeakScan

inductive Origin where
  | file
  | page
deriving DecidableEq, Repr

/-- One file or page. `text` is missing when a file could not be read, and `readError` then says
why. `scriptText` holds the inline scripts of a page. -/
structure Document where
  path : String
  text : Option String
  origin : Origin := .file
  scriptText : Option String := none
  readError : Option String := none
deriving DecidableEq, Repr

/-- The text that code detectors run on: the scripts of a page, the whole of a file. -/
def Document.codeText (d : Document) : Option String :=
  match d.origin with
  | .page => some (d.scriptText.getD "")
  | .file => d.text

end LeakScan
