import LeakScan.Json.Basic
import LeakScan.Report.Basic

namespace LeakScan

def lineJson (line : Option Int) : Json := Json.ofOption .int line

def KeyFinding.toJson (f : KeyFinding) : Json :=
  .obj [("file", .str f.file), ("service", .str f.service), ("line", lineJson f.line),
    ("issue", .str f.issue), ("recommendation", .str f.recommendation)]

def FileFinding.toJson (f : FileFinding) : Json :=
  .obj [("file", .str f.file), ("line", lineJson f.line), ("issue", .str f.issue),
    ("recommendation", .str f.recommendation)]

def CodeFinding.toJson (f : CodeFinding) : Json :=
  .obj [("file", .str f.file), ("line", lineJson f.line), ("issue", .str f.issue),
    ("pattern", .str f.detector), ("recommendation", .str f.recommendation)]

def ReadFailure.toJson (e : ReadFailure) : Json :=
  .obj [("file", .str e.file), ("error", .str e.error)]

def Target.key : Target → String
  | directory _ => "scanned_directory"
  | page _ => "scanned_url"

namespace Report

def summaryJson (r : Report) : Json :=
  .obj [("total_files_scanned", .ofNat r.filesScanned), ("total_issues", .ofNat r.totalIssues),
    ("risk_level", .str r.risk.text), (r.target.key, .str r.target.location),
    ("scan_started_at", .str r.startedAt.stamp), ("scan_completed_at", .str r.completedAt.stamp)]

def toJson (r : Report) : Json :=
  .obj [("api_keys", .arr (r.keys.map (·.toJson))),
    ("sensitive_files", .arr (r.sensitiveFiles.map (·.toJson))),
    ("code_issues", .arr (r.codeIssues.map (·.toJson))),
    ("errors", .arr (r.errors.map (·.toJson))),
    ("summary", r.summaryJson)]

def riskJson (r : Report) : Json :=
  .obj [("level", .str r.risk.text), ("total_issues", .ofNat r.totalIssues),
    ("breakdown", .obj [("api_keys", .ofNat r.keys.length),
      ("sensitive_files", .ofNat r.sensitiveFiles.length),
      ("code_issues", .ofNat r.codeIssues.length)])]

end Report

end LeakScan
