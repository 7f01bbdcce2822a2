import LeakScan.Command.Arguments
import LeakScan.Command.Help
import LeakScan.Config.Load
import LeakScan.Config.Template
import LeakScan.Json.Printer
import LeakScan.Report.Sarif
import LeakScan.Report.Summary
import LeakScan.Scan.Page

namespace LeakScan.Command

/-- Standard output. It can refuse a text that it has no bytes for, but ASCII it takes. -/
structure Console where
  refusal? : String → Option String
  takes_ascii : ∀ text : String, (∀ c ∈ text.toList, c.toNat < 0x80) → refusal? text = none

def Console.full : Console := ⟨fun _ => none, fun _ _ => rfl⟩

structure Setting where
  clock : Clock
  reply : Page.Reply
  job : Sarif.Job
  console : Console := .full

inductive Crash where
  | load (e : Config.LoadFailure)
  | scan (e : ScanFailure)
  | path (e : PathError)
  /-- Standard output refuses a text. -/
  | print (words : String)
  /-- The risk of a scan is held against no threshold. -/
  | noThreshold
deriving DecidableEq, Repr

def Crash.message : Crash → String
  | load e => e.message
  | scan e => e.message
  | path e => e.message
  | print words => words
  | noThreshold => "unhashable type: 'list'"

structure Outcome where
  exit : Except Crash Nat
  output : String
  errors : String
  requests : List Page.Request
  disk : Disk

namespace Outcome

def ending (disk : Disk) (code : Nat) (output errors : String) : Outcome :=
  ⟨.ok code, output, errors, [], disk⟩

def crash (disk : Disk) (c : Crash) (errors : String) : Outcome := ⟨.error c, "", errors, [], disk⟩

/-- Prints a text with a line feed and goes on, unless standard output refuses it. -/
def say (console : Console) (disk : Disk) (text : String) (next : Outcome) : Outcome :=
  match console.refusal? text with
  | some words => .crash disk (.print words) ""
  | none => { next with output := text ++ "\n" ++ next.output }

def sayAll (console : Console) (disk : Disk) (texts : List String) (next : Outcome) : Outcome :=
  texts.foldr (say console disk) next

end Outcome

def targetOf (root : String) : String := Path.below (Path.normal root) ".keyhunter.yml"

def writeTemplate (disk : Disk) (console : Console) (root : String) (force : Bool) : Outcome :=
  let target := targetOf root
  match disk.isPresent target with
  | .error e => .crash disk (.path e) ""
  | .ok present =>
    if present && !force then
      .ending disk 1 "" ("Error: " ++ target ++ " already exists (use --force to overwrite)\n")
    else match disk.writeAt target (Text.encodeUtf8 Config.template.toList) with
      | .error e => .crash disk (.path e) ""
      | .ok disk => .say console disk ("Wrote " ++ target) (.ending disk 0 "" "")

def runInit (disk : Disk) (console : Console) (root : String) (force : Bool) : Outcome :=
  let text := Path.normal root
  match disk.isDirectory text with
  | .error e => .crash disk (.path e) ""
  | .ok false => .ending disk 1 "" ("Error: Directory does not exist: " ++ text ++ "\n")
  | .ok true => writeTemplate disk console root force

inductive Subject where
  | directory (root : String)
  | page (url : String)
deriving DecidableEq, Repr

def Subject.settingsRoot : Subject → String
  | directory root => root
  | page _ => "."

/-- The settings of a scan; the strict ones leave the broad patterns out. -/
def settingsOf (o : ScanOptions) (c : Config) : Config :=
  if o.strict then c.set "broad_patterns" (.bool false) else c

def Subject.scan (s : Subject) (disk : Disk) (config : Config) (setting : Setting) :
    Noted ScanFailure Report :=
  match s with
  | directory root => scanDirectory disk root (some config) setting.clock
  | page url => scanPage (some url) (some config) setting.reply setting.clock

def Subject.requests (s : Subject) (config : Config) : List Page.Request :=
  match s with
  | directory _ => []
  | page url => (pageRequest? (some url) (some config)).toList

def eventLines (verbose : Bool) (events : List Event) : String :=
  let least := if verbose then Severity.debug.rank else Severity.warning.rank
  String.join ((events.filter fun e => least ≤ e.severity.rank).map Event.line)

/-- A file to be written with a form of the report: where, what, and how the form is called. -/
structure Sheet where
  file : String
  content : Json
  title : String

/-- The files that are asked for; one without a name is not. -/
def sheets (o : ScanOptions) (report sarif : Json) : List Sheet :=
  let wanted := o.jsonFile.toList.map (Sheet.mk · report "JSON") ++
    o.sarifFile.toList.map (Sheet.mk · sarif "SARIF")
  wanted.filter fun s => !s.file.isEmpty

def Sheet.notice (s : Sheet) : String := s.title ++ " output written to " ++ s.file

/-- Writes files in order and goes on, unless one cannot be written. Each is announced, if asked for,
once it is written. -/
def writeSheets (console : Console) (announce : Bool) (next : Disk → Outcome) (disk : Disk) :
    List Sheet → Outcome
  | [] => next disk
  | s :: rest =>
    match disk.writeAt (Path.normal s.file) (Text.encodeUtf8 (Json.render s.content).toList) with
    | .error e => .crash disk (.path e) ""
    | .ok disk =>
      let onward := writeSheets console announce next disk rest
      if announce then .say console disk s.notice onward else onward

def shown (format : Format) (r : Report) (sarif : Json) : List String :=
  match format with
  | .text => r.summaryLines
  | .blank => r.summaryLines
  | .json => [Json.render r.toJson]
  | .sarif => [Json.render sarif]

def Threshold.code (t : Threshold) (risk : Risk) : Except Crash Nat :=
  match t, risk with
  | .never, _ => .ok 0
  | .medium, .low => .ok 0
  | .medium, _ => .ok 1
  | .high, .high => .ok 1
  | .high, _ => .ok 0
  | .blank, _ => .error .noThreshold

def publish (disk : Disk) (setting : Setting) (o : ScanOptions) (r : Report) : Outcome :=
  let sarif := (Sarif.ofReport r setting.job).toJson
  let printed disk := Outcome.sayAll setting.console disk (shown o.format r sarif)
    ⟨o.failOn.code r.risk, "", "", [], disk⟩
  writeSheets setting.console (o.format == .text) printed disk (sheets o r.toJson sarif)

def scanWith (disk : Disk) (s : Subject) (o : ScanOptions) (config : Config) (setting : Setting) :
    Outcome :=
  let scan := s.scan disk config setting
  let notes := eventLines o.verbose scan.events
  let outcome := match scan.result with
    | .ok r => publish disk setting o r
    | .error e =>
      if e.isReported then .ending disk 1 "" ("Error: " ++ e.message ++ "\n")
      else .crash disk (.scan e) ""
  { outcome with errors := notes ++ outcome.errors, requests := s.requests config }

def runScan (disk : Disk) (s : Subject) (o : ScanOptions) (setting : Setting) : Outcome :=
  let load := Config.load disk o.config s.settingsRoot
  let notes := eventLines o.verbose load.events
  let outcome := match load.result with
    | .ok config => scanWith disk s o (settingsOf o config) setting
    | .error e =>
      match e.path? with
      | some _ => .ending disk 1 "" ("CONFIG ERROR: " ++ e.message ++ "\n")
      | none => .crash disk (.load e) ""
  { outcome with errors := notes ++ outcome.errors }

def Topic.program : Topic → String
  | main => "keyhunter"
  | version => "keyhunter version"
  | scan => "keyhunter scan"
  | scanPage => "keyhunter scan-url"
  | init => "keyhunter init"

def Topic.help : Topic → String
  | main => joinLines mainHelp
  | version => joinLines versionHelp
  | scan => joinLines scanHelp
  | scanPage => joinLines scanPageHelp
  | init => joinLines initHelp

def carryOut (disk : Disk) (setting : Setting) : Order → Outcome
  | .version => .ending disk 0 (Sarif.toolVersion ++ "\n") ""
  | .help topic => .ending disk 0 topic.help ""
  | .misuse topic words => .ending disk 2 "" (topic.program ++ ": error: " ++ words ++ "\n")
  | .scan root o => runScan disk (.directory root) o setting
  | .scanPage url o => runScan disk (.page url) o setting
  | .init root force => runInit disk setting.console root force

def run (disk : Disk) (setting : Setting) (words : List String) : Outcome :=
  carryOut disk setting (.read words)

end LeakScan.Command
