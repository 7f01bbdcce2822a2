import LeakScan.Document
import LeakScan.Report.Basic

namespace LeakScan

structure Tally where
  target : Target
  startedAt : Moment
  filesScanned : Nat := 0
  keys : List KeyFinding := []
  sensitiveFiles : List FileFinding := []
  codeIssues : List CodeFinding := []
  errors : List ReadFailure := []
deriving DecidableEq, Repr

/-- What may be handed in as a finding: one, or something else of a named kind, which is refused. -/
inductive Entry where
  | finding (f : Finding)
  | foreign (kind : String)
deriving DecidableEq, Repr

namespace Tally

def addFinding (t : Tally) : Finding → Tally
  | .key f => { t with keys := t.keys ++ [f] }
  | .sensitive f => { t with sensitiveFiles := t.sensitiveFiles ++ [f] }
  | .code f => { t with codeIssues := t.codeIssues ++ [f] }

def addError (t : Tally) (file error : String) : Tally :=
  { t with errors := t.errors ++ [⟨file, error⟩] }

/-- Counts a document and notes why it could not be read, if it could not. -/
def count (t : Tally) (d : Document) : Tally :=
  let t := { t with filesScanned := t.filesScanned + 1 }
  match d.readError with
  | some e => t.addError d.path e
  | none => t

/-- Adds entries up to the first foreign one, whose kind is the second part of the answer. -/
def addEntries (t : Tally) : List Entry → Tally × Option String
  | [] => (t, none)
  | .finding f :: es => addEntries (t.addFinding f) es
  | .foreign kind :: _ => (t, some kind)

def add (t : Tally) (d : Document) (entries : List Entry) : Tally × Option String :=
  (t.count d).addEntries entries

def addFindings (t : Tally) (d : Document) (findings : List Finding) : Tally :=
  findings.foldl addFinding (t.count d)

def report (t : Tally) (completedAt : Moment) : Report where
  target := t.target
  filesScanned := t.filesScanned
  startedAt := t.startedAt
  completedAt := completedAt
  keys := t.keys
  sensitiveFiles := t.sensitiveFiles
  codeIssues := t.codeIssues
  errors := t.errors

end Tally

end LeakScan
