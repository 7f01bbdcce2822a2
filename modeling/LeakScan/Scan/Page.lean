import LeakScan.Page.Exchange
import LeakScan.Scan.Directory

namespace LeakScan

/-- The request that settings lead to. A known key that is missing has its default here, apart from
the agent. -/
def Config.request (c : Config) (url : String) : Page.Request :=
  Page.request url ((c.get? "request_timeout").getD Config.defaultTimeout) (c.get? "user_agent")

/-- The request made in the scan of a page; for a bad address there is none. -/
def pageRequest? (url : Option String) (config : Option Config) : Option Page.Request :=
  match Page.validateUrl url with
  | .ok u => some ((Config.orDefault config).request u)
  | .error _ => none

/-- The scan of a page under given settings: its address is checked, it is requested once, and what
the detectors find in it is tallied. -/
def scanPageOver (url : Option String) (config : Option Config) (clock : Clock) :
    Page.Exchange ScanFailure Report := do
  let config := Config.orDefault config
  let url ← .done (Noted.lift (Page.validateUrl url))
  let tally : Tally := { target := .page url, startedAt := clock.start }
  .done (Noted.note ⟨.debug, "keyhunter.scanner", "Scanning URL " ++ url⟩)
  let document ← Page.fetchOver (config.request url)
  let tally := tally.addFindings document (document.findings (Catalog.ofMode config.mode))
  let report := tally.report clock.stop
  .done (Noted.note (finishedEvent report))
  pure report

/-- What the scan of a page comes to, `reply` being what came of its request. -/
def scanPage (url : Option String) (config : Option Config) (reply : Page.Reply) (clock : Clock) :
    Noted ScanFailure Report :=
  ((scanPageOver url config clock).run reply).2

end LeakScan
