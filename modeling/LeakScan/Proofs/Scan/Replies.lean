import LeakScan.Proofs.Scan.Strict

namespace LeakScan

open Page (Exchange)

variable {u : String} {url : Option String} {config : Option Config} {clock : Clock}
  {reply : Page.Reply} {d : Document} {catalog : Catalog} {f : Finding}

theorem requests_scanPageOver :
    ((scanPageOver url config clock).run reply).1 = (pageRequest? url config).toList := by
  unfold scanPageOver pageRequest?
  simp only [Exchange.requests_bind]
  cases Page.validateUrl url with
  | error e => rfl
  | ok u =>
    simp only [Exchange.run_done, Page.run_fetchOver, Noted.lift, Noted.note, List.nil_append]
    cases (Page.fetch ((Config.orDefault config).request u) reply).result with
    | error e => rfl
    | ok d => rfl

namespace Page

/-- An address of the web, its scheme in small letters. -/
def IsAddress (u : String) : Prop := "http://".toList <+: u.toList ∨ "https://".toList <+: u.toList

theorem IsAddress.ne_empty (h : IsAddress u) : u ≠ "" := by
  rintro rfl
  rcases h with h | h
  · exact absurd h (by decide)
  · exact absurd h (by decide)

theorem scheme_iff : ("http://".toList.isPrefixOf u.toList || "https://".toList.isPrefixOf u.toList) =
    true ↔ IsAddress u := by
  rw [Bool.or_eq_true, List.isPrefixOf_iff_prefix, List.isPrefixOf_iff_prefix]
  rfl

theorem validateUrl_of_isAddress (h : IsAddress u) : validateUrl (some u) = .ok u := by
  have hne : ¬ u.isEmpty = true := by simpa using h.ne_empty
  unfold validateUrl
  simp only
  rw [if_neg hne, if_pos (scheme_iff.2 h)]

theorem validateUrl_of_no_address (h : ∀ u, url = some u → ¬ IsAddress u) :
    (url = none ∨ url = some "") ∧ validateUrl url = .error (.missingUrl url) ∨
      ∃ u, url = some u ∧ u ≠ "" ∧ validateUrl url = .error (.badUrl u) := by
  cases url with
  | none => exact .inl ⟨.inl rfl, rfl⟩
  | some u =>
    by_cases hu : u = ""
    · subst hu
      exact .inl ⟨.inr rfl, rfl⟩
    · have hne : ¬ u.isEmpty = true := by simpa using hu
      refine .inr ⟨u, rfl, hu, ?_⟩
      unfold validateUrl
      simp only
      rw [if_neg hne, if_neg fun hscheme => h u rfl (scheme_iff.1 hscheme)]

/-- The one request for a page: its address as it was given, the time limit of the settings, and
their agent if it counts as true. -/
structure Request.For (r : Request) (u : String) (c : Config) : Prop where
  url : r.url = u
  timeout : r.timeout = (c.get? "request_timeout").getD Config.defaultTimeout
  agent : ∀ v, r.agent = some v ↔ c.get? "user_agent" = some v ∧ v.truthy = true

theorem for_request (u : String) (c : Config) : (c.request u).For u c where
  url := rfl
  timeout := rfl
  agent _ := Option.filter_eq_some_iff

theorem statusTrouble?_eq_none {status : Int} {reason : Option String} :
    statusTrouble? status reason u = none ↔ ¬ (400 ≤ status ∧ status < 600) := by
  rw [statusTrouble?, Option.map_eq_none_iff, faultSide?]
  split
  · simp; omega
  · split
    · simp; omega
    · simp; omega

end Page

theorem report_of_page : (Tally.addFindings { target := .page u, startedAt := clock.start } d
    (d.findings catalog)).report clock.stop =
      { target := .page u
        filesScanned := 1
        startedAt := clock.start
        completedAt := clock.stop
        keys := d.keyFindings catalog
        sensitiveFiles := d.fileFindings catalog
        codeIssues := d.codeFindings catalog
        errors := (d.readError.map fun e => ⟨d.path, e⟩).toList } := by
  simp [Tally.addFindings, Tally.foldl_addFinding, Tally.count_eq, Tally.report,
    Document.keys_findings, Document.sensitive_findings, Document.code_findings]

structure Report.OnPage (report : Report) (u : String) : Prop where
  filesScanned : report.filesScanned = 1
  errors : report.errors = []
  files : ∀ f ∈ report.findings, f.file = u

theorem onPage_of_document (hpath : d.path = u) (hread : d.readError = none) :
    ((Tally.addFindings { target := .page u, startedAt := clock.start } d
      (d.findings catalog)).report clock.stop).OnPage u := by
  rw [report_of_page]
  refine ⟨rfl, by rw [hread]; rfl, fun f hf => ?_⟩
  simp only [Report.findings, List.mem_append, List.mem_map] at hf
  rcases hf with (⟨k, hk, rfl⟩ | ⟨s, hs, rfl⟩) | ⟨c, hc, rfl⟩
  · exact (Document.file_of_keyFindings hk).trans hpath
  · exact (Document.file_of_fileFindings hs).trans hpath
  · exact (Document.file_of_codeFindings hc).trans hpath

/-- What a scan of the page at `u` comes to, by the reply to its request. -/
inductive EndsOn (u : String) : Page.Reply → Except ScanFailure Report → Prop where
  | http (words : String) (status : Option Int) :
      EndsOn u (.raised (.http words status)) (.error (.fetch words u status))
  | request (words : String) : EndsOn u (.raised (.request words)) (.error (.fetch words u none))
  | other (words : String) : EndsOn u (.raised (.other words)) (.error (.transport words))
  | status {status : Int} {reason : Option String} {body : String} (words : String)
      (bad : 400 ≤ status ∧ status < 600) :
      EndsOn u (.response status reason body) (.error (.fetch words u (some status)))
  | markup {status : Int} {reason : Option String} {body : String} {e : Page.Fault}
      (good : ¬ (400 ≤ status ∧ status < 600)) (unread : Page.scripts body.toList = .error e) :
      EndsOn u (.response status reason body) (.error (.markup e))
  | report {status : Int} {reason : Option String} {body : String} {ss : List (List Char)}
      {report : Report} (good : ¬ (400 ≤ status ∧ status < 600))
      (read : Page.scripts body.toList = .ok ss) (page : report.OnPage u) :
      EndsOn u (.response status reason body) (.ok report)

theorem EndsOn.of_report {report : Report} (h : EndsOn u reply (.ok report)) :
    ∃ status reason body, reply = .response status reason body ∧
      ¬ (400 ≤ status ∧ status < 600) := by
  cases h with
  | report good _ _ => exact ⟨_, _, _, rfl, good⟩

theorem endsOn_scanPage (h : Page.IsAddress u) :
    EndsOn u reply (scanPage (some u) config reply clock).result := by
  rw [result_scanPage, Page.validateUrl_of_isAddress h]
  simp only [Except.bind]
  cases reply with
  | raised t =>
    cases t with
    | http words status => exact .http words status
    | request words => exact .request words
    | other words => exact .other words
  | response status reason body =>
    have hurl : ((Config.orDefault config).request u).url = u := rfl
    unfold Page.fetch
    simp only [Noted.result_bind, Noted.result_note, Except.bind, hurl]
    cases htrouble : Page.statusTrouble? status reason u with
    | some t =>
      obtain ⟨side, hside, rfl⟩ := Option.map_eq_some_iff.1 htrouble
      refine .status _ ?_
      by_contra hgood
      rw [Page.statusTrouble?_eq_none.2 hgood] at htrouble
      cases htrouble
    | none =>
      have hgood := Page.statusTrouble?_eq_none.1 htrouble
      simp only [Page.read]
      cases hscripts : Page.scripts body.toList with
      | error e => exact .markup hgood hscripts
      | ok ss => exact .report hgood hscripts (onPage_of_document rfl rfl)

theorem scanPage_of_no_address (config : Option Config) (reply : Page.Reply) (clock : Clock)
    (h : ∀ u, url = some u → ¬ Page.IsAddress u) :
    pageRequest? url config = none ∧
      ((url = none ∨ url = some "") ∧
          (scanPage url config reply clock).result = .error (.missingUrl url) ∨
        ∃ u, url = some u ∧ u ≠ "" ∧
          (scanPage url config reply clock).result = .error (.badUrl u)) := by
  rw [result_scanPage, pageRequest?]
  rcases Page.validateUrl_of_no_address h with ⟨hurl, hmissing⟩ | ⟨u, hu, hne, hscheme⟩
  · rw [hmissing]
    exact ⟨rfl, .inl ⟨hurl, rfl⟩⟩
  · rw [hscheme]
    exact ⟨rfl, .inr ⟨u, hu, hne, rfl⟩⟩

theorem isAddress_of_report {report : Report}
    (h : (scanPage url config reply clock).result = .ok report) :
    ∃ u, url = some u ∧ Page.IsAddress u := by
  by_contra hnone
  obtain ⟨-, ⟨-, hfails⟩ | ⟨u, -, -, hfails⟩⟩ :=
    scanPage_of_no_address config reply clock fun u hu h => hnone ⟨u, hu, h⟩
  · simp [hfails] at h
  · simp [hfails] at h

/-- A scan of a page asks the network for nothing if the address is none of the web, and fails. Else
it makes one request, for the address as it is, and ends by the reply: in a report on this one page,
in a failure that names the address and the status if there is a response with a bad one, or in what
broke the transport or the markup. -/
theorem page_scan_outcomes (url : Option String) (config : Option Config) (clock : Clock)
    (reply : Page.Reply) :
    (scanPageOver url config clock).run reply =
      ((pageRequest? url config).toList, scanPage url config reply clock) ∧
    ((∀ u, url = some u → ¬ Page.IsAddress u) →
      (pageRequest? url config).toList = [] ∧
      ((url = none ∨ url = some "") ∧
          (scanPage url config reply clock).result = .error (.missingUrl url) ∨
        ∃ u, url = some u ∧ u ≠ "" ∧
          (scanPage url config reply clock).result = .error (.badUrl u))) ∧
    (∀ u, url = some u → Page.IsAddress u →
      (∃ r, (pageRequest? url config).toList = [r] ∧ r.For u (Config.orDefault config)) ∧
      EndsOn u reply (scanPage url config reply clock).result) ∧
    ∀ report, (scanPage url config reply clock).result = .ok report →
      (∃ u, url = some u ∧ Page.IsAddress u) ∧ ∃ status reason body,
        reply = .response status reason body ∧ ¬ (400 ≤ status ∧ status < 600) := by
  refine ⟨Prod.ext requests_scanPageOver rfl, fun hbad => ?_,
    fun u hu haddress => ?_, fun report hreport => ?_⟩
  · obtain ⟨hnone, hfails⟩ := scanPage_of_no_address config reply clock hbad
    exact ⟨by rw [hnone]; rfl, hfails⟩
  · subst hu
    refine ⟨⟨(Config.orDefault config).request u, ?_, Page.for_request u _⟩,
      endsOn_scanPage haddress⟩
    rw [pageRequest?, Page.validateUrl_of_isAddress haddress]
    rfl
  · obtain ⟨u, rfl, hu⟩ := isAddress_of_report hreport
    exact ⟨⟨u, rfl, hu⟩, (hreport ▸ endsOn_scanPage hu).of_report⟩

theorem page_scan_outcomes_gone :
    (pageRequest? (some "https://a") none).toList.length = 1 ∧
    (∃ words, (scanPage (some "https://a") none (.response 404 none "") sampleClock).result =
      .error (.fetch words "https://a" (some 404))) ∧
    (scanPage (some "https://a") none (.raised (.http "gone" (some 410))) sampleClock).result =
      .error (.fetch "gone" "https://a" (some 410)) := by
  obtain ⟨-, -, hasked, -⟩ :=
    page_scan_outcomes (some "https://a") none sampleClock (.response 404 none "")
  obtain ⟨⟨r, hr, -⟩, hends⟩ := hasked "https://a" rfl (.inr (by decide))
  refine ⟨by rw [hr]; rfl, ?_, ?_⟩
  · generalize (scanPage (some "https://a") none (.response 404 none "") sampleClock).result = result
      at hends
    cases hends with
    | status words bad => exact ⟨words, rfl⟩
    | markup good _ => exact absurd ⟨by decide, by decide⟩ good
    | report good _ _ => exact absurd ⟨by decide, by decide⟩ good
  · obtain ⟨-, -, hasked, -⟩ :=
      page_scan_outcomes (some "https://a") none sampleClock (.raised (.http "gone" (some 410)))
    have hends := (hasked "https://a" rfl (.inr (by decide))).2
    generalize (scanPage (some "https://a") none (.raised (.http "gone" (some 410)))
      sampleClock).result = result at hends
    cases hends with
    | http words status => rfl

def sectionPage : String := "<![foo]>"

/-- The reply is a success, and still the scan of its page gives no report. -/
theorem unknown_section_ends_scan :
    Page.IsAddress "https://example.com" ∧ ¬ ((400 : Int) ≤ 200 ∧ (200 : Int) < 600) ∧
    (scanPage (some "https://example.com") none (.response 200 (some "OK") sectionPage)
      sampleClock).result = .error (.markup (.unknownSection "foo".toList)) :=
  ⟨.inr (by decide), by decide, rfl⟩

end LeakScan
