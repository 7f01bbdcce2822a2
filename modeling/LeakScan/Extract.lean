import LeakScan.Catalog
import LeakScan.Document
import LeakScan.Finding
import LeakScan.Text.Lines
import LeakScan.Text.Lower

namespace LeakScan

def baseName (path : String) : String :=
  String.ofList (path.toList.reverse.takeWhile (· != '/')).reverse

namespace Detector

def lineIn? (d : Detector) (text : List Char) : Option Nat :=
  (d.pattern.search text).map fun m => Text.lineOf text m.word

end Detector

namespace Document

def keyStorage : Origin → String
  | .page => "secure storage methods"
  | .file => "environment variables"

def keyFinding (d : Document) (detector : Detector) (line : Nat) : KeyFinding where
  file := d.path
  service := detector.name
  line := some line
  issue := "Potential " ++ detector.name ++ " API key found"
  recommendation :=
    "Remove hardcoded " ++ detector.name ++ " API key and use " ++ keyStorage d.origin

def codeFinding (d : Document) (detector : Detector) (line : Nat) : CodeFinding where
  file := d.path
  line := some line
  detector := detector.name
  issue := "Potential sensitive data handling in code"
  recommendation := "Review security practices and implement proper data handling"

def keyFindings (d : Document) (catalog : Catalog) : List KeyFinding :=
  match d.text with
  | none => []
  | some text => catalog.secrets.filterMap fun s => (s.lineIn? text.toList).map (d.keyFinding s)

/-- A page whose body could not be had has no code findings, whatever its scripts. -/
def codeFindings (d : Document) (catalog : Catalog) : List CodeFinding :=
  match d.text, d.codeText with
  | some _, some code =>
    if code.isEmpty then []
    else catalog.codes.filterMap fun s => (s.lineIn? code.toList).map (d.codeFinding s)
  | _, _ => []

/-- Pages are searched for every listed name; a file is judged by its own name, in small letters. -/
def fileFindings (d : Document) (catalog : Catalog) : List FileFinding :=
  match d.origin with
  | .page =>
    match d.text with
    | none => []
    | some text =>
      if text.isEmpty then []
      else catalog.sensitiveFiles.filterMap fun name =>
        if Text.holds name.toList text.toList then
          some {
            file := d.path
            issue := "Reference to sensitive file \"" ++ name ++ "\" found"
            recommendation :=
              "Ensure sensitive files are not exposed or referenced in public URLs" }
        else none
  | .file =>
    if Text.lower (baseName d.path) ∈ catalog.sensitiveFiles then
      [{ file := d.path
         issue := "Potentially sensitive configuration file found"
         recommendation := "Move sensitive data to secure storage or environment variables" }]
    else []

/-- Keys first, then risky code, then sensitive files. -/
def findings (d : Document) (catalog : Catalog) : List Finding :=
  (d.keyFindings catalog).map .key ++ (d.codeFindings catalog).map .code ++
    (d.fileFindings catalog).map .sensitive

end Document

end LeakScan
