import LeakScan.Proofs.Scan.Replies

namespace LeakScan

theorem scanDirectory_fill (disk : Disk) (given : String) (c : Config) (clock : Clock) :
    scanDirectory disk given (some c.fill) clock = scanDirectory disk given (some c) clock := by
  refine scanDirectory_congr ?_ fun root _ => ?_
  · rw [Config.orDefault_fill, Config.mode_fill]
  · rw [Config.orDefault_fill, Config.skips_fill]

theorem Page.fetch_congr {r r' : Request} {reply : Reply} (hurl : r'.url = r.url)
    (htimeout : r'.timeout = r.timeout) : fetch r' reply = fetch r reply := by
  unfold fetch
  rw [hurl, htimeout]

theorem scanPage_fill (url : Option String) (c : Config) (reply : Page.Reply) (clock : Clock) :
    scanPage url (some c.fill) reply clock = scanPage url (some c) reply clock := by
  have hfetch (u : String) : Page.fetch ((Config.orDefault (some c)).fill.request u) reply =
      Page.fetch ((Config.orDefault (some c)).request u) reply := by
    rw [Config.request_fill]
    exact Page.fetch_congr rfl rfl
  unfold scanPage scanPageOver
  simp only [Page.Exchange.answer_bind, Page.run_fetchOver, Config.orDefault_fill,
    Config.mode_fill, hfetch]

/-- Filling settings keeps what they say and adds what is usual of the known keys that they do not
name, and a scan of a directory is the same before and after, with all that is noted on the way. No
settings at all, or empty ones, stand for the default ones. -/
theorem partial_settings_scan (disk : Disk) (given : String) (clock : Clock) :
    (∀ (c : Config) (key : String),
      c.fill.get? key = (c.get? key).or (Config.defaultEntries.lookup key)) ∧
    (∀ c : Config, scanDirectory disk given (some c) clock =
      scanDirectory disk given (some c.fill) clock) ∧
    scanDirectory disk given none clock = scanDirectory disk given (some .default) clock ∧
    scanDirectory disk given (some ⟨[]⟩) clock = scanDirectory disk given (some .default) clock :=
  ⟨Config.get?_fill, fun c => (scanDirectory_fill disk given c clock).symm, rfl, rfl⟩

/-- A scan of a page gives the same report or failure under settings as under the filled ones. The
page is requested once, with the same time limit, and by the same agent exactly if the settings name
one: a missing agent is not filled in where the request is made. -/
theorem partial_settings_page (u : String) (hu : Page.IsAddress u) (c : Config)
    (hc : c.entries ≠ []) (clock : Clock) (reply : Page.Reply) :
    scanPage (some u) (some c) reply clock = scanPage (some u) (some c.fill) reply clock ∧
    ∃ r r' : Page.Request,
      ((scanPageOver (some u) (some c) clock).run reply).1 = [r] ∧
      ((scanPageOver (some u) (some c.fill) clock).run reply).1 = [r'] ∧
      r.url = u ∧ r'.url = u ∧ r'.timeout = r.timeout ∧
      (r' = r ↔ c.get? "user_agent" ≠ none) ∧
      (c.get? "user_agent" = none →
        r.agent = none ∧ r'.agent = some (.str "KeyHunter/1.0.0")) := by
  have hrequests (config : Option Config) :
      ((scanPageOver (some u) config clock).run reply).1 =
        [(Config.orDefault config).request u] := by
    rw [requests_scanPageOver, pageRequest?, Page.validateUrl_of_isAddress hu]
    rfl
  have hgiven : Config.orDefault (some c) = c := Config.orDefault_of_entries hc
  have hfilled : Config.orDefault (some c.fill) = c.fill := by rw [Config.orDefault_fill, hgiven]
  refine ⟨(scanPage_fill (some u) c reply clock).symm, c.request u, c.fill.request u, ?_, ?_, rfl,
    rfl, ?_, Config.request_fill_eq_iff, fun hmissing => Config.agent_request_of_missing hmissing u⟩
  · rw [hrequests, hgiven]
  · rw [hrequests, hfilled]
  · rw [Config.request_fill]

def sampleChoice : Config := ⟨[(.str "broad_patterns", .bool true)]⟩

theorem partial_settings_page_choice :
    Page.IsAddress "https://example.com" ∧ sampleChoice.entries ≠ [] ∧
    ∃ r r' : Page.Request,
      ((scanPageOver (some "https://example.com") (some sampleChoice) sampleClock).run
        (.response 200 none "<p>hi</p>")).1 = [r] ∧
      ((scanPageOver (some "https://example.com") (some sampleChoice.fill) sampleClock).run
        (.response 200 none "<p>hi</p>")).1 = [r'] ∧
      r.agent = none ∧ r'.agent = some (.str "KeyHunter/1.0.0") := by
  have haddress : Page.IsAddress "https://example.com" := .inr (by decide)
  have hsome : sampleChoice.entries ≠ [] := List.cons_ne_nil _ _
  obtain ⟨-, r, r', hr, hr', -, -, -, -, hmissing⟩ :=
    partial_settings_page "https://example.com" haddress sampleChoice hsome sampleClock
      (.response 200 none "<p>hi</p>")
  obtain ⟨hagent, hagent'⟩ := hmissing rfl
  exact ⟨haddress, hsome, r, r', hr, hr', hagent, hagent'⟩

/-- The settings are accepted, and still their request is another one than that of the filled
settings. -/
theorem missing_agent_seen_in_request :
    Page.IsAddress "https://example.com" ∧ sampleChoice.entries ≠ [] ∧
    sampleChoice.fill.fault? = none ∧
    ((scanPageOver (some "https://example.com") (some sampleChoice) sampleClock).run
        (.response 200 none "<p>hi</p>")).1 ≠
      ((scanPageOver (some "https://example.com") (some sampleChoice.fill) sampleClock).run
        (.response 200 none "<p>hi</p>")).1 := by
  refine ⟨.inr (by decide), List.cons_ne_nil _ _, by decide, fun heq => ?_⟩
  have hagents := congrArg (List.map fun r : Page.Request => r.agent.isSome) heq
  rw [requests_scanPageOver, requests_scanPageOver] at hagents
  exact absurd hagents (by decide)

end LeakScan
