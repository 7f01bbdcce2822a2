import LeakScan.Number.Shortest
import LeakScan.Report.Basic

namespace LeakScan.Report

def lineText (line : Option Int) : String :=
  match line with
  | some n => toString n
  | none => "None"

/-- A part of a summary with a headline; nothing if it has no lines. -/
def part (headline : String) (lines : List String) : List String :=
  if lines.isEmpty then [] else headline :: lines

def shownErrors : Nat := 3

def errorLines (errors : List ReadFailure) : List String :=
  (errors.take shownErrors).map (fun e => "    - " ++ e.file ++ ": " ++ e.error) ++
    if shownErrors < errors.length then
      ["    ... and " ++ toString (errors.length - shownErrors) ++ " more"]
    else []

def durationLine (r : Report) : String :=
  "Duration: " ++ (r.duration?.getD .nan).hundredths ++ "s"

def keyLine (f : KeyFinding) : String :=
  "  " ++ f.file ++ ":" ++ lineText f.line ++ "  " ++ f.service

def fileLine (f : FileFinding) : String := "  " ++ f.file ++ "  " ++ f.issue

def codeLine (f : CodeFinding) : String :=
  "  " ++ f.file ++ ":" ++ lineText f.line ++ "  " ++ f.detector

def headLines (r : Report) : List String :=
  ["\n🔍 KeyHunter Scan Results", "".pushn '=' 50, "Target: " ++ r.target.location,
    "Files scanned: " ++ toString r.filesScanned, "Total issues: " ++ toString r.totalIssues,
    "Risk level: " ++ r.risk.text, r.durationLine]

def breakdownLine (r : Report) : String :=
  "\nBreakdown: " ++ toString r.keys.length ++ " api keys, " ++
    toString r.sensitiveFiles.length ++ " sensitive files, " ++
    toString r.codeIssues.length ++ " code issues"

/-- What is printed of a report, one text after the other. Some of them have a line feed within. -/
def summaryLines (r : Report) : List String :=
  r.headLines ++ part "\n🔑 API keys:" (r.keys.map keyLine) ++
    part "\n📄 Sensitive files:" (r.sensitiveFiles.map fileLine) ++
    part "\n⚠️  Code issues:" (r.codeIssues.map codeLine) ++
    part ("\nUnreadable files: " ++ toString r.errors.length) (errorLines r.errors) ++
    [r.breakdownLine]

end LeakScan.Report
