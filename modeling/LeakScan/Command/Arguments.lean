import LeakScan.Command.Grammar

namespace LeakScan.Command

inductive Format where
  | text
  | json
  | sarif
  /-- Two dashes in place of a form: the text is shown, and files are written without a word. -/
  | blank
deriving DecidableEq, Repr

inductive Threshold where
  | never
  | medium
  | high
  /-- Two dashes in place of a risk, which no scan can be held against. -/
  | blank
deriving DecidableEq, Repr

structure ScanOptions where
  format : Format := .text
  config : Option String := none
  strict : Bool := false
  jsonFile : Option String := none
  sarifFile : Option String := none
  failOn : Threshold := .never
  verbose : Bool := false
deriving DecidableEq, Repr

inductive Topic where
  | main
  | version
  | scan
  | scanPage
  | init
deriving DecidableEq, Repr

inductive Order where
  | version
  | help (topic : Topic)
  | misuse (topic : Topic) (words : String)
  | scan (root : String) (options : ScanOptions)
  | scanPage (url : String) (options : ScanOptions)
  | init (root : String) (force : Bool)
deriving DecidableEq, Repr

def helpSwitch : Switch := ⟨["-h", "--help"], .help⟩

def topics : List (String × Topic) :=
  [("version", .version), ("scan", .scan), ("scan-url", .scanPage), ("init", .init)]

def mainGrammar : Grammar where
  switches := [helpSwitch, ⟨["-v", "--version"], .flag⟩]
  slot := .command "cmd" (topics.map (·.1))

def formats : List (String × Format) := [("text", .text), ("json", .json), ("sarif", .sarif)]

def thresholds : List (String × Threshold) :=
  [("high", .high), ("medium", .medium), ("never", .never)]

def scanSwitches : List Switch :=
  [helpSwitch, ⟨["--format"], .value (some (formats.map (·.1)))⟩, ⟨["--config"], .value none⟩,
    ⟨["--strict"], .flag⟩, ⟨["--json-out"], .value none⟩, ⟨["--sarif-out"], .value none⟩,
    ⟨["--fail-on"], .value (some (thresholds.map (·.1)))⟩, ⟨["--verbose"], .flag⟩]

def Topic.grammar : Topic → Grammar
  | main => mainGrammar
  | version => ⟨[helpSwitch], .none⟩
  | scan => ⟨scanSwitches, .optional⟩
  | scanPage => ⟨scanSwitches, .required "url"⟩
  | init => ⟨[helpSwitch, ⟨["--force"], .flag⟩], .optional⟩

namespace ScanOptions

/-- Takes over what one piece of a line says. A later piece wins over an earlier one. -/
def add (o : ScanOptions) : Piece → ScanOptions
  | .value "--format" t => { o with format := (formats.lookup t).getD o.format }
  | .value "--config" t => { o with config := some t }
  | .value "--json-out" t => { o with jsonFile := some t }
  | .value "--sarif-out" t => { o with sarifFile := some t }
  | .value "--fail-on" t => { o with failOn := (thresholds.lookup t).getD o.failOn }
  | .blank "--format" => { o with format := .blank }
  | .blank "--config" => { o with config := none }
  | .blank "--json-out" => { o with jsonFile := none }
  | .blank "--sarif-out" => { o with sarifFile := none }
  | .blank "--fail-on" => { o with failOn := .blank }
  | .flag "--strict" => { o with strict := true }
  | .flag "--verbose" => { o with verbose := true }
  | _ => o

def ofPieces (ps : List Piece) : ScanOptions := ps.foldl add {}

end ScanOptions

def wordsOf (ps : List Piece) : List String :=
  ps.flatMap fun
    | .words ws => ws
    | _ => []

def rootOf (ps : List Piece) : String := (wordsOf ps).head?.getD "."

namespace Order

def ofTopic (topic : Topic) (ps : List Piece) : Order :=
  match topic with
  | .main => .help .main
  | .version => .version
  | .scan => .scan (rootOf ps) (.ofPieces ps)
  | .scanPage => .scanPage ((wordsOf ps).head?.getD "") (.ofPieces ps)
  | .init => .init (rootOf ps) (ps.contains (.flag "--force"))

def ofStop (topic : Topic) : Stop → Order
  | .help => .help topic
  | .misuse words => .misuse topic words

def withNoneLeft (extras : List String) (o : Order) : Order :=
  if extras.isEmpty then o
  else .misuse .main ("unrecognized arguments: " ++ " ".intercalate extras)

/-- What a line of words asks for. The flag for the version wins over a command, but the command's
own words have to be right. -/
def read (words : List String) : Order :=
  match mainGrammar.read words with
  | .error e => ofStop .main e
  | .ok (ps, extras) =>
    let version := ps.contains (.flag "--version")
    match wordsOf ps with
    | [] => withNoneLeft extras (if version then .version else .help .main)
    | command :: rest =>
      let topic := (topics.lookup command).getD .main
      match topic.grammar.read rest with
      | .error e => ofStop topic e
      | .ok (own, more) =>
        withNoneLeft (extras ++ more) (if version then .version else ofTopic topic own)

end Order

end LeakScan.Command
