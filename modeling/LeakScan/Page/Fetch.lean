import LeakScan.Config.Value
import LeakScan.Document
import LeakScan.Event
import LeakScan.Scan.Failure

namespace LeakScan.Page

/-- A request for a page. Without an agent no header names the program. -/
structure Request where
  url : String
  agent : Option Value
  timeout : Value

/-- What is raised while a page is requested. An HTTP error has the status of its response, if it
comes with one; other errors of the request have none. -/
inductive Trouble where
  | http (words : String) (status : Option Int)
  | request (words : String)
  | other (words : String)
deriving DecidableEq, Repr

inductive Reply where
  | response (status : Int) (reason : Option String) (body : String)
  | raised (t : Trouble)
deriving DecidableEq, Repr

/-- The address of a page: not empty, and of one of the two web schemes in small letters. -/
def validateUrl (url : Option String) : Except ScanFailure String :=
  match url with
  | none => .error (.missingUrl none)
  | some u =>
    if u.isEmpty then .error (.missingUrl (some u))
    else if "http://".toList.isPrefixOf u.toList || "https://".toList.isPrefixOf u.toList then .ok u
    else .error (.badUrl u)

def request (url : String) (timeout : Value) (agent : Option Value) : Request where
  url := url
  agent := agent.filter (·.truthy)
  timeout := timeout

def faultSide? (status : Int) : Option String :=
  if 400 ≤ status ∧ status < 500 then some "Client"
  else if 500 ≤ status ∧ status < 600 then some "Server"
  else none

def statusWords (status : Int) (side url : String) (reason : Option String) : String :=
  toString status ++ " " ++ side ++ " Error: " ++ reason.getD "None" ++ " for url: " ++ url

def statusTrouble? (status : Int) (reason : Option String) (url : String) : Option Trouble :=
  (faultSide? status).map fun side => .http (statusWords status side url reason) (some status)

def Trouble.failure (url : String) : Trouble → ScanFailure
  | .http words status => .fetch words url status
  | .request words => .fetch words url none
  | .other words => .transport words

def source : String := "keyhunter.scanner.remote"

def document (url body : String) (scripts : List (List Char)) : Document where
  path := url
  text := some body
  origin := .page
  scriptText := some (String.ofList (joinScripts scripts))

def read (url body : String) : Noted ScanFailure Document :=
  match scripts body.toList with
  | .error e => .fail (.markup e)
  | .ok ss =>
    ⟨[⟨.debug, source, "Fetched " ++ url ++ ": " ++ toString body.length ++ " bytes, " ++
        toString ss.length ++ " inline scripts"⟩], .ok (document url body ss)⟩

def fetch (r : Request) (reply : Reply) : Noted ScanFailure Document := do
  Noted.note ⟨.debug, source, "Fetching " ++ r.url ++ " (timeout=" ++ r.timeout.text ++ "s)"⟩
  match reply with
  | .raised t => Noted.fail (t.failure r.url)
  | .response status reason body =>
    match statusTrouble? status reason r.url with
    | some t => Noted.fail (t.failure r.url)
    | none => read r.url body

end LeakScan.Page
