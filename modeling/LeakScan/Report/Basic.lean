import LeakScan.Finding
import LeakScan.Risk
import LeakScan.Time.Moment
import LeakScan.Number.Binary64

namespace LeakScan

inductive Target where
  | directory (location : String)
  | page (url : String)
deriving DecidableEq, Repr

def Target.location : Target → String
  | directory l => l
  | page u => u

/-- A file that was counted but not read, or a directory that was not listed. -/
structure ReadFailure where
  file : String
  error : String
deriving DecidableEq, Repr

structure Report where
  target : Target
  filesScanned : Nat
  startedAt : Moment
  completedAt : Moment
  keys : List KeyFinding
  sensitiveFiles : List FileFinding
  codeIssues : List CodeFinding
  errors : List ReadFailure
deriving DecidableEq, Repr

namespace Report

/-- All findings: keys, then sensitive files, then risky code. -/
def findings (r : Report) : List Finding :=
  r.keys.map .key ++ r.sensitiveFiles.map .sensitive ++ r.codeIssues.map .code

def totalIssues (r : Report) : Nat :=
  r.keys.length + r.sensitiveFiles.length + r.codeIssues.length

def risk (r : Report) : Risk := Risk.ofCount r.totalIssues

def duration? (r : Report) : Option Binary64 :=
  (r.completedAt.microsSince? r.startedAt).map fun us => Binary64.ofIntQuotient us 1000000

theorem length_findings (r : Report) : r.findings.length = r.totalIssues := by
  simp [findings, totalIssues, Nat.add_assoc]

end Report

end LeakScan
