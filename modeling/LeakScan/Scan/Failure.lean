import LeakScan.Config.Settings
import LeakScan.Disk.Canonical
import LeakScan.Page.Scripts

namespace LeakScan

inductive ScanFailure where
  | missingDirectory (path : String)
  | notDirectory (path : String)
  | missingUrl (url : Option String)
  | badUrl (url : String)
  | fetch (words : String) (url : String) (status : Option Int)
  /-- A link without end on the way to the root. -/
  | loop (path : String)
  | path (e : PathError)
  | skips (f : Config.SkipFault)
  | transport (words : String)
  | markup (e : Page.Fault)
deriving DecidableEq, Repr

namespace ScanFailure

def message : ScanFailure → String
  | missingDirectory _ => "Directory does not exist"
  | notDirectory _ => "Path is not a directory"
  | missingUrl _ => "URL is required"
  | badUrl _ => "Invalid URL format. URL must start with http:// or https://"
  | fetch words _ _ => "Failed to scan URL: " ++ words
  | loop p => (Disk.Unresolved.loop p).message
  | path e => e.message
  | skips f => f.message
  | transport words => words
  | markup e => e.message

/-- Whether a cause is reported to the caller; the others end the program or the request. -/
def isReported : ScanFailure → Bool
  | missingDirectory _ => true
  | notDirectory _ => true
  | missingUrl _ => true
  | badUrl _ => true
  | fetch _ _ _ => true
  | _ => false

end ScanFailure

structure Clock where
  start : Moment
  stop : Moment
deriving DecidableEq, Repr

end LeakScan
