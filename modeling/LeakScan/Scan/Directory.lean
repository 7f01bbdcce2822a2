import LeakScan.Extract
import LeakScan.Report.Tally
import LeakScan.Scan.Failure
import LeakScan.Scan.Walk

namespace LeakScan

def unresolvedEvent (given words : String) : Event :=
  ⟨.debug, "keyhunter.scanner.direct",
    "Cannot resolve scan root " ++ Text.quoted given ++ ": " ++ words⟩

def validateDirectory (disk : Disk) (given : String) : Noted ScanFailure String :=
  match disk.canonical given with
  | .error (.loop path) => .fail (.loop path)
  | .error .nul =>
    ⟨[unresolvedEvent given Disk.Unresolved.nul.message], .error (.missingDirectory given)⟩
  | .ok place =>
    let path := Path.ofLocation place
    match disk.isPresent path with
    | .error e => ⟨[unresolvedEvent given e.message], .error (.missingDirectory given)⟩
    | .ok false => .fail (.missingDirectory path)
    | .ok true =>
      match disk.isDirectory path with
      | .error e => .fail (.path e)
      | .ok false => .fail (.notDirectory path)
      | .ok true => .ok path

/-- Adds what a walk met: a document with its findings, or a directory that was not listed. -/
def Tally.addVisit (catalog : Catalog) (t : Tally) : Visit → Tally
  | .document _ d => t.addFindings d (d.findings catalog)
  | .unlisted _ relative e => t.addError relative e.message

def Tally.addVisits (catalog : Catalog) (t : Tally) (visits : List Visit) : Tally :=
  visits.foldl (·.addVisit catalog) t

def finishedEvent (r : Report) : Event :=
  ⟨.debug, "keyhunter.core.report",
    "Scan of " ++ r.target.location ++ " finished: " ++ toString r.filesScanned ++ " files, " ++
      toString r.totalIssues ++ " issues, risk " ++ r.risk.text⟩

/-- The report on what a walk met, unless something stopped it. -/
def reportWalk (catalog : Catalog) (root : String) (clock : Clock) (w : Walk) :
    Except ScanFailure Report :=
  match w.stopped with
  | some e => .error (.path e)
  | none =>
    let tally : Tally := { target := .directory root, startedAt := clock.start }
    .ok ((tally.addVisits catalog w.visits).report clock.stop)

def scanDirectory (disk : Disk) (given : String) (config : Option Config) (clock : Clock) :
    Noted ScanFailure Report := do
  let config := Config.orDefault config
  let root ← validateDirectory disk given
  Noted.note ⟨.debug, "keyhunter.scanner", "Scanning directory " ++ root⟩
  match config.skips with
  | .error f => Noted.fail (.skips f)
  | .ok skips =>
    let w := walk disk skips root
    Noted.notes (w.visits.flatMap Visit.events)
    let report ← Noted.lift (reportWalk (Catalog.ofMode config.mode) root clock w)
    Noted.note (finishedEvent report)
    pure report

end LeakScan
