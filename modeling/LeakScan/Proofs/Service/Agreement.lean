import LeakScan.Proofs.Command.Printing
import LeakScan.Proofs.Report.Printed
import LeakScan.Proofs.Scan.Strict
import LeakScan.Service.Respond

namespace LeakScan

open Command (Crash Outcome Subject eventLines runScan)

namespace Service

def Route.ofSubject : Subject → Route
  | .directory _ => directoryScan
  | .page _ => pageScan

def Names (body : Option String) : Subject → Prop
  | .directory root => directoryOf body = .ok root
  | .page url => urlOf body = .ok (some (Text.Code.ofChars url.toList))

structure Asks (c : Call) (s : Subject) : Prop where
  route : route? c.address = some (.ofSubject s)
  method : c.method = "POST"
  body : Names c.body s

end Service

namespace Command

def Crash.isReported : Crash → Bool
  | load e => e.path?.isSome
  | scan e => e.isReported
  | path _ => false
  | print _ => false
  | noThreshold => false

def Crash.headline : Crash → String
  | load _ => "CONFIG ERROR: "
  | _ => "Error: "

variable (disk : Disk) (config : Option String) (setting : Setting) (s : Subject)

def trail : List Event :=
  let load := Config.load disk config s.settingsRoot
  load.events ++ match load.result with
    | .error _ => []
    | .ok c => (s.scan disk c setting).events

def asked : List Page.Request :=
  match (Config.load disk config s.settingsRoot).result with
  | .error _ => []
  | .ok c => s.requests c

def plain : ScanOptions := { format := .json, config }

end Command

namespace Service

variable (setting : Setting)

end Service

end LeakScan
