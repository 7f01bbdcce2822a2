import LeakScan.Proofs.Scan.Replies

namespace LeakScan

/-- There is no result because the reply for the page at `u` has this status. -/
def RefusedBy {α : Type} (u : String) (status : Int) (x : Except ScanFailure α) : Prop :=
  ∃ words, x = .error (.fetch words u (some status))

namespace Page

def IsFault (status : Int) : Prop := 400 ≤ status ∧ status < 600

variable {status status' : Int} {reason reason' : Option String} {body body' : String} {r : Request}

theorem exists_words (reason : Option String) (url : String) (h : IsFault status) :
    ∃ words, statusTrouble? status reason url = some (.http words (some status)) := by
  cases hside : faultSide? status with
  | some side => exact ⟨_, by rw [statusTrouble?, hside, Option.map_some]⟩
  | none =>
    have hnone : statusTrouble? status reason url = none := by rw [statusTrouble?, hside]; rfl
    exact absurd h (statusTrouble?_eq_none.1 hnone)

theorem refused_of_fault (h : IsFault status) :
    RefusedBy r.url status (fetch r (.response status reason body)).result := by
  obtain ⟨words, hwords⟩ := exists_words reason r.url h
  refine ⟨words, ?_⟩
  simp only [fetch, hwords]
  rfl

theorem not_refused_of_read {url u : String} : ¬ RefusedBy u status (read url body).result := by
  intro h
  obtain ⟨words, h⟩ := h
  unfold read at h
  split at h
  · cases h
  · cases h

theorem refused_iff_fault :
    RefusedBy r.url status (fetch r (.response status reason body)).result ↔ IsFault status := by
  constructor
  · intro h
    by_contra hfault
    simp only [fetch, statusTrouble?_eq_none.2 hfault] at h
    exact not_refused_of_read h
  · exact refused_of_fault

theorem fetch_of_fault (h : IsFault status) :
    fetch r (.response status reason body) = fetch r (.response status reason body') := by
  obtain ⟨words, hwords⟩ := exists_words reason r.url h
  simp only [fetch, hwords]

theorem fetch_of_no_fault (h : ¬ IsFault status) (h' : ¬ IsFault status') :
    fetch r (.response status reason body) = fetch r (.response status' reason' body) := by
  simp only [fetch, statusTrouble?_eq_none.2 h, statusTrouble?_eq_none.2 h']

end Page

variable {u : String} {url : Option String} {config : Option Config} {clock : Clock}
  {reply reply' : Page.Reply} {status : Int}

theorem scanPage_congr (h : ∀ r, Page.fetch r reply = Page.fetch r reply') :
    scanPage url config reply clock = scanPage url config reply' clock := by
  unfold scanPage scanPageOver
  simp only [Page.Exchange.answer_bind, Page.run_fetchOver, h]
  rfl

theorem refused_scanPage (hu : Page.IsAddress u) :
    RefusedBy u status (scanPage (some u) config reply clock).result ↔
      RefusedBy u status (Page.fetch ((Config.orDefault config).request u) reply).result := by
  rw [result_scanPage, Page.validateUrl_of_isAddress hu]
  simp only [Except.bind]
  cases (Page.fetch ((Config.orDefault config).request u) reply).result with
  | error e => simp only [RefusedBy, Except.error.injEq]
  | ok d => simp only [RefusedBy, reduceCtorEq]

/-- A reply refuses its page by a status of 400 to 599 and by no other one. A refused page is not
looked at; a page with another status is fetched and scanned just like one that came with success,
so that redirections, interim replies and statuses of no known meaning all count as success. -/
theorem statuses_refuse_pages (u : String) (hu : Page.IsAddress u) (config : Option Config)
    (clock : Clock) (status : Int) (reason : Option String) (body : String) :
    (∀ r : Page.Request, r.url = u →
      (RefusedBy u status (Page.fetch r (.response status reason body)).result ↔
        400 ≤ status ∧ status < 600)) ∧
    (RefusedBy u status (scanPage (some u) config (.response status reason body) clock).result ↔
      400 ≤ status ∧ status < 600) ∧
    (400 ≤ status ∧ status < 600 → ∀ body',
      (∀ r, Page.fetch r (.response status reason body) =
        Page.fetch r (.response status reason body')) ∧
      scanPage (some u) config (.response status reason body) clock =
        scanPage (some u) config (.response status reason body') clock) ∧
    (¬ (400 ≤ status ∧ status < 600) → ∀ reason',
      (∀ r, Page.fetch r (.response status reason body) =
        Page.fetch r (.response 200 reason' body)) ∧
      scanPage (some u) config (.response status reason body) clock =
        scanPage (some u) config (.response 200 reason' body) clock) := by
  refine ⟨?_, ?_, fun hfault body' => ?_, fun hfault reason' => ?_⟩
  · rintro r rfl
    exact Page.refused_iff_fault
  · rw [refused_scanPage hu]
    exact Page.refused_iff_fault
  · have hfetch (r : Page.Request) : Page.fetch r (.response status reason body) =
        Page.fetch r (.response status reason body') := Page.fetch_of_fault hfault
    exact ⟨hfetch, scanPage_congr hfetch⟩
  · have hgood : ¬ Page.IsFault 200 := fun h => absurd h.1 (by decide)
    have hfetch (r : Page.Request) : Page.fetch r (.response status reason body) =
        Page.fetch r (.response 200 reason' body) := Page.fetch_of_no_fault hfault hgood
    exact ⟨hfetch, scanPage_congr hfetch⟩

theorem statuses_refuse_pages_last :
    Page.IsAddress "http://a" ∧
    RefusedBy "http://a" 599 (scanPage (some "http://a") none (.response 599 none "") sampleClock).result ∧
    scanPage (some "http://a") none (.response 600 none ".env") sampleClock =
      scanPage (some "http://a") none (.response 200 (some "OK") ".env") sampleClock := by
  have hu : Page.IsAddress "http://a" := .inl (by decide)
  obtain ⟨-, hrefused, -, -⟩ := statuses_refuse_pages "http://a" hu none sampleClock 599 none ""
  obtain ⟨-, -, -, hread⟩ := statuses_refuse_pages "http://a" hu none sampleClock 600 none ".env"
  exact ⟨hu, hrefused.2 (by decide), (hread (by decide) (some "OK")).2⟩

/-- A page that has not been modified comes without a body, and a report is made on it. -/
theorem not_modified_is_scanned :
    Page.IsAddress "https://example.com" ∧ ¬ ((200 : Int) ≤ 304 ∧ (304 : Int) ≤ 299) ∧
    (∃ report, (scanPage (some "https://example.com") none
        (.response 304 (some "Not Modified") "") sampleClock).result = .ok report ∧
      report.totalIssues = 0) ∧
    ¬ RefusedBy "https://example.com" 304 (scanPage (some "https://example.com") none
      (.response 304 (some "Not Modified") "") sampleClock).result := by
  refine ⟨.inr (by decide), by decide, ⟨_, rfl, rfl⟩, ?_⟩
  rintro ⟨words, hwords⟩
  cases hwords

end LeakScan
