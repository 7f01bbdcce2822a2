import LeakScan.Config.Load
import LeakScan.Report.Sarif
import LeakScan.Scan.Page
import LeakScan.Service.Address
import LeakScan.Service.Refusal

namespace LeakScan.Service

open Json (Raw)
open Text (Code)

structure Setting where
  mode : String
  config : Option String
  disk : Disk
  clock : Clock
  reply : Page.Reply

structure Call where
  method : String
  address : String
  body : Option String

inductive Answer where
  | success (body : Json)
  /-- A scan that failed: the headline, the cause and the time. -/
  | failed (title words stamp : String)
  | refused (r : Refusal)
  /-- A body that is no text at all. -/
  | unreadable
  | notFound
  | wrongMethod
  /-- Something unexpected; the words are those that are shown. -/
  | broken (words : String)

namespace Answer

def status : Answer → Nat
  | success _ => 200
  | failed _ _ _ => 400
  | unreadable => 400
  | notFound => 404
  | wrongMethod => 405
  | refused _ => 422
  | broken _ => 500

def detail (words : String) : Json := .obj [("detail", .str words)]

def body : Answer → Json
  | success b => b
  | failed title words stamp =>
    .obj [("error", .str title), ("message", .str words), ("timestamp", .str stamp)]
  | refused r => r.toRaw.toJson
  | unreadable => detail "There was an error parsing the body"
  | notFound => detail "Not Found"
  | wrongMethod => detail "Method Not Allowed"
  | broken words => .obj [("error", .str "Internal Server Error"), ("message", .str words)]

end Answer

structure Response where
  answer : Answer
  requests : List Page.Request := []

inductive Route where
  | root
  | health
  | directoryScan
  | pageScan
deriving DecidableEq, Repr

namespace Route

def path : Route → String
  | root => "/"
  | health => "/api/health"
  | directoryScan => "/api/scan"
  | pageScan => "/api/scan/url"

def method : Route → String
  | root => "GET"
  | health => "GET"
  | directoryScan => "POST"
  | pageScan => "POST"

def all : List Route := [root, health, directoryScan, pageScan]

end Route

/-- The route at a place. A line feed at its end does not count. -/
def Route.at? (place : List Char) : Option Route :=
  Route.all.find? fun r => place == r.path.toList || place == r.path.toList ++ ['\n']

def withoutSlashes (cs : List Char) : List Char := (cs.reverse.dropWhile (· == '/')).reverse

/-- The route that an address leads to; slashes at the end of its place are passed over. -/
def route? (address : String) : Option Route :=
  let place := Address.place address.toList
  (Route.at? place).or
    (if place.getLast? = some '/' then Route.at? (withoutSlashes place) else none)

def rootJson (s : Setting) : Json :=
  .obj [("status", .str "API is running"),
    ("endpoints", .obj [("health", .str Route.health.path), ("scan", .str Route.directoryScan.path),
      ("scanUrl", .str Route.pageScan.path)]),
    ("mode", .str s.mode), ("version", .str Sarif.toolVersion)]

def healthJson (s : Setting) : Json :=
  .obj [("status", .str "healthy"), ("mode", .str s.mode), ("timestamp", .str s.clock.start.stamp)]

def unexpected (s : Setting) (words : String) : Answer :=
  .broken (if s.mode = "development" then words else "An unexpected error occurred")

def refuse (s : Setting) (f : BodyFault) : Answer :=
  match f.refusal? with
  | none => .unreadable
  | some r =>
    match hindrance? r.toRaw with
    | some words => unexpected s words
    | none => .refused r

def loadFailed (s : Setting) (title : String) (e : Config.LoadFailure) : Answer :=
  match e.path? with
  | some _ => .failed title e.message s.clock.start.stamp
  | none => unexpected s e.message

def scanAnswer (s : Setting) (title : String) (scan : Except ScanFailure Report) : Answer :=
  match scan with
  | .ok r => .success r.toJson
  | .error e =>
    if e.isReported then .failed title e.message s.clock.start.stamp else unexpected s e.message

def scanDirectoryFor (s : Setting) (directory : String) : Response :=
  match (Config.load s.disk s.config directory).result with
  | .error e => ⟨loadFailed s "Scan Failed" e, []⟩
  | .ok config =>
    ⟨scanAnswer s "Scan Failed" (scanDirectory s.disk directory (some config) s.clock).result, []⟩

/-- Why an answer about a page cannot be sent, if the address of the page as it was sent, with which
texts of the answer end, has halves of pairs. -/
def answerHindrance? (url : List Code) (answer : Answer) : Option String :=
  if url.any Code.isHalf then
    hindrance? ((Raw.ofJson answer.body).withEnding (Code.ofChars (Code.standIn url).toList) url)
  else none

def pageAnswer (s : Setting) (url : Option (List Code)) (scan : Except ScanFailure Report) : Answer :=
  let answer := scanAnswer s "URL Scan Failed" scan
  match url.bind fun codes => answerHindrance? codes answer with
  | some words => unexpected s words
  | none => answer

def scanPageFor (s : Setting) (sent : Option (List Code)) : Response :=
  match (Config.load s.disk s.config ".").result with
  | .error e => ⟨loadFailed s "URL Scan Failed" e, []⟩
  | .ok config =>
    let url := sent.map Code.standIn
    ⟨pageAnswer s sent (scanPage url (some config) s.reply s.clock).result,
      (pageRequest? url (some config)).toList⟩

def answerAt (s : Setting) (body : Option String) : Route → Response
  | .root => ⟨.success (rootJson s), []⟩
  | .health => ⟨.success (healthJson s), []⟩
  | .directoryScan =>
    match directoryOf body with
    | .error f => ⟨refuse s f, []⟩
    | .ok directory => scanDirectoryFor s directory
  | .pageScan =>
    match urlOf body with
    | .error f => ⟨refuse s f, []⟩
    | .ok url => scanPageFor s url

def respond (s : Setting) (c : Call) : Response :=
  match route? c.address with
  | none => ⟨.notFound, []⟩
  | some route =>
    if c.method = route.method then answerAt s c.body route else ⟨.wrongMethod, []⟩

end LeakScan.Service
