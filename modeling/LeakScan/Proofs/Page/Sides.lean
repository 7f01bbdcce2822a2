import LeakScan.Proofs.Page.Joined
import LeakScan.Proofs.Page.Layout
import LeakScan.Proofs.Scan.Replies

namespace LeakScan

open Page (joinScripts)

variable {u : String} {config : Option Config} {clock : Clock} {reply : Page.Reply}
  {ss : List (List Char)}

namespace Page

/-- The reply is a success, and its body holds these scripts. -/
def Reply.Yields (reply : Reply) (ss : List (List Char)) : Prop :=
  ∃ status reason body, reply = .response status reason body ∧ ¬ (400 ≤ status ∧ status < 600) ∧
    scripts body.toList = .ok ss

theorem fetch_of_yields (h : reply.Yields ss) (r : Request) :
    ∃ body, (fetch r reply).result = .ok (document r.url body ss) := by
  obtain ⟨status, reason, body, rfl, hgood, hscripts⟩ := h
  refine ⟨body, ?_⟩
  unfold fetch
  simp only [statusTrouble?_eq_none.2 hgood, read, hscripts]
  rfl

end Page

theorem codeFindings_document (catalog : Catalog) (body body' : String) :
    (Page.document u body ss).codeFindings catalog =
      (Page.document u body' ss).codeFindings catalog :=
  Document.codeFindings_congr rfl rfl rfl

theorem codeIssues_of_yields (url : Option String) (config : Option Config) (clock : Clock)
    (h : reply.Yields ss) :
    (scanPage url config reply clock).result.map Report.codeIssues =
      (Page.validateUrl url).map fun u =>
        (Page.document u "" ss).codeFindings (.ofMode (Config.orDefault config).mode) := by
  rw [result_scanPage]
  cases Page.validateUrl url with
  | error e => rfl
  | ok u =>
    obtain ⟨body, hfetch⟩ := Page.fetch_of_yields h ((Config.orDefault config).request u)
    simp only [Except.bind, hfetch, Except.map, report_of_page]
    exact congrArg Except.ok (codeFindings_document _ _ _)

theorem report_of_yields (haddress : Page.IsAddress u) (h : reply.Yields ss) :
    ∃ report, (scanPage (some u) config reply clock).result = .ok report ∧
      report.codeIssues =
        (Page.document u "" ss).codeFindings (.ofMode (Config.orDefault config).mode) := by
  have hissues := codeIssues_of_yields (some u) config clock h
  rw [Page.validateUrl_of_isAddress haddress] at hissues
  cases hresult : (scanPage (some u) config reply clock).result with
  | error e =>
    rw [hresult] at hissues
    cases hissues
  | ok report =>
    rw [hresult] at hissues
    exact ⟨report, rfl, Except.ok.inj hissues⟩

theorem codeFindings_no_scripts (catalog : Catalog) (body : String) :
    (Page.document u body []).codeFindings catalog = [] := rfl

theorem exists_codeFinding_iff {m : Catalog.Mode} {s : Detector} (hs : s ∈ Detector.codes) :
    (∃ f ∈ (Page.document u "" ss).codeFindings (.ofMode m), f.detector = s.name) ↔
      s.pattern.Occurs (joinScripts ss) := by
  have hcodes := Catalog.codes_ofMode m
  have hcode : (Page.document u "" ss).codeText = some (String.ofList (joinScripts ss)) := rfl
  have hbuilt : ∀ t ∈ (Catalog.ofMode m).codes, t ∈ Detector.secrets ++ Detector.codes :=
    fun t ht => List.mem_append_right _ (hcodes ▸ ht)
  have hfound := Document.exists_code_finding rfl hcode hbuilt (hcodes ▸ hs) hs
  rw [String.toList_ofList] at hfound
  simpa only [Document.code_mem_findings] using hfound

/-- Two pages with the same scripts have the same risky code, which is what the patterns find in the
scripts: texts around them neither add to it nor hide any of it, and without scripts there is none.
Keys and sensitive files of a page are the same whatever its scripts. -/
theorem page_sides_apart :
    (∀ url config clock clock' (reply reply' : Page.Reply) ss,
      reply.Yields ss → reply'.Yields ss →
      (scanPage url config reply clock).result.map Report.codeIssues =
        (scanPage url config reply' clock').result.map Report.codeIssues) ∧
    (∀ u config clock (reply : Page.Reply) ss, Page.IsAddress u → reply.Yields ss →
      ∃ report, (scanPage (some u) config reply clock).result = .ok report ∧
        (∀ s ∈ Detector.codes, (∃ f ∈ report.codeIssues, f.detector = s.name) ↔
          s.pattern.Occurs (joinScripts ss)) ∧
        (ss = [] → report.codeIssues = [])) ∧
    (∀ (parts : List Page.Embedded) last, (∀ p ∈ parts, p.Apart) → Page.IsPlain last →
      ∀ status reason, ¬ (400 ≤ status ∧ status < 600) →
        (Page.Reply.response status reason (String.ofList (Page.embedded parts last))).Yields
          ((parts.map fun p => Page.scriptContent {} p.script).filter fun s => !s.isEmpty)) ∧
    ∀ catalog (d d' : Document), d.origin = .page → d'.origin = .page → d.path = d'.path →
      d.text = d'.text →
      (d.findings catalog).filterMap Finding.key? = (d'.findings catalog).filterMap Finding.key? ∧
      (d.findings catalog).filterMap Finding.sensitive? =
        (d'.findings catalog).filterMap Finding.sensitive? := by
  refine ⟨fun url config clock clock' reply reply' ss h h' => ?_,
    fun u config clock reply ss haddress h => ?_,
    fun parts last hparts hlast status reason hgood => ?_,
    fun catalog d d' hd hd' hpath htext => ?_⟩
  · rw [codeIssues_of_yields url config clock h, codeIssues_of_yields url config clock' h']
  · obtain ⟨report, hreport, hissues⟩ := report_of_yields haddress h
    refine ⟨report, hreport, fun s hs => ?_, ?_⟩
    · rw [hissues]
      exact exists_codeFinding_iff hs
    · rintro rfl
      rw [hissues]
      exact codeFindings_no_scripts _ _
  · refine ⟨status, reason, _, rfl, hgood, ?_⟩
    rw [String.toList_ofList]
    exact Page.scripts_embedded hparts hlast
  · have horigin := hd.trans hd'.symm
    rw [Document.keys_findings, Document.keys_findings, Document.sensitive_findings,
      Document.sensitive_findings]
    exact ⟨Document.keyFindings_congr hpath htext horigin,
      Document.fileFindings_congr hpath htext horigin⟩

def tokenScript (text : String) : Page.Embedded :=
  ⟨text.toList, Page.scriptTag, "token".toList, Page.scriptTag⟩

def tokenPage (text last : String) : Page.Reply :=
  .response 200 none (String.ofList (Page.embedded [tokenScript text] last.toList))

theorem page_sides_apart_password :
    (scanPage (some "http://a") none (tokenPage "" "") sampleClock).result.map Report.codeIssues =
      (scanPage (some "http://a") none (tokenPage "password" "debug=true") sampleClock).result.map
        Report.codeIssues ∧
    (∃ report, (scanPage (some "http://a") none (tokenPage "" "") sampleClock).result = .ok report ∧
      ∃ f ∈ report.codeIssues, f.detector = Detector.hardcodedCredentials.name) ∧
    ((Page.document "http://a" ".env" []).findings (.build true)).filterMap Finding.sensitive? =
      ((Page.document "http://a" ".env" ["token".toList]).findings (.build true)).filterMap
        Finding.sensitive? := by
  obtain ⟨hsame, hfound, hembedded, hrest⟩ := page_sides_apart
  have hyields (text last : String) (htext : Page.IsPlain text.toList)
      (hlast : Page.IsPlain last.toList) : (tokenPage text last).Yields ["token".toList] := by
    have hscript : ¬ ['<', '/'] <:+: "token".toList := by decide
    exact hembedded [tokenScript text] last.toList (List.forall_mem_singleton.2
      ⟨htext, Page.spellsScript_scriptTag, hscript, Page.spellsScript_scriptTag⟩) hlast 200 none
      (by decide)
  have hempty := hyields "" "" ⟨by decide, by decide⟩ ⟨by decide, by decide⟩
  have hpassword := hyields "password" "debug=true" ⟨by decide, by decide⟩ ⟨by decide, by decide⟩
  refine ⟨hsame _ _ _ _ _ _ _ hempty hpassword, ?_, ?_⟩
  · obtain ⟨report, hreport, hissues, -⟩ :=
      hfound "http://a" none sampleClock _ _ (.inl (by decide)) hempty
    refine ⟨report, hreport, (hissues Detector.hardcodedCredentials (by simp [Detector.codes])).2 ?_⟩
    exact Pattern.isSome_search.1 (by decide)
  · exact (hrest (.build true) _ _ rfl rfl rfl rfl).2

end LeakScan
