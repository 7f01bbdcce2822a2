import LeakScan.Proofs.Config.Skips
import LeakScan.Proofs.Walk.Visits

namespace LeakScan

def Visit.document? : Visit → Option Document
  | .document _ d => some d
  | .unlisted _ _ _ => none

def Visit.unlisted? : Visit → Option (String × PathError)
  | .document _ _ => none
  | .unlisted _ relative e => some (relative, e)

@[simp] theorem path_documentAt (disk : Disk) (path : String) (q : Location) :
    (documentAt disk path q).path = relativeText q := by
  unfold documentAt
  split
  · rfl
  · split <;> rfl

namespace Walk

def documents (w : Walk) : List Document := w.visits.filterMap Visit.document?

/-- The directories that were not listed, as they are reported. -/
def unlisted (w : Walk) : List (String × PathError) := w.visits.filterMap Visit.unlisted?

variable {disk : Disk} {skips : Config.Skips} {root : String} {entries : List (String × Node)}
  {access : Access} {p : Location}

theorem skipsFile_eq_false {name : String} :
    skipsFile skips name = false ↔
      ∃ s, Path.IsSuffix name s ∧ Text.lower s ∉ skips.extensions := by
  simp [skipsFile, Path.isSuffix_iff]

theorem opened_or_unlistable (root : String) {top : Node} {d : Location}
    {inner : List (String × Node)} {w : Access} (hat : top.at? d = some (.directory inner w))
    (hkept : ∀ name ∈ d, name ∉ skips.dirs) :
    Opened skips root top d ∨ ∃ q, q <+: d ∧ Unlistable skips root top q := by
  induction d using List.reverseRecOn generalizing inner w with
  | nil =>
    by_cases hl : Listable root top []
    · exact .inl (opened_nil.2 hl)
    · exact .inr ⟨[], List.nil_prefix, ⟨inner, w, hat⟩, hl, .inl rfl⟩
  | append_singleton d name ih =>
    obtain ⟨above, v, habove, -⟩ := Node.at?_append_some hat
    rcases ih habove fun c hc => hkept c (List.mem_append_left _ hc) with hd | ⟨q, hq, hun⟩
    · by_cases hl : Listable root top (d ++ [name])
      · refine .inl ⟨fun q hq => ?_, hkept⟩
        rcases List.prefix_concat_iff.1 hq with rfl | hq
        · exact hl
        · exact hd.listable q hq
      · exact .inr ⟨d ++ [name], List.prefix_rfl, ⟨inner, w, hat⟩, hl,
          .inr ⟨d, name, rfl, hd, hkept name (by simp)⟩⟩
    · exact .inr ⟨q, hq.trans (List.prefix_append d [name]), hun⟩

section Root

variable (hroot : disk.node root = .ok (.directory entries access))
  (hwf : Node.WellFormed (.directory entries access))

include hroot hwf

theorem completed_iff_unobstructed :
    (walk disk skips root).stopped = none ↔
      ∀ q e, ¬ Obstructs disk skips root (.directory entries access) q e := by
  rw [(traces_walk hroot hwf).not_stopped_iff]
  simp only [error_happens_iff hroot hwf]

theorem eligible_iff_document (hclear : ∀ q e, ¬ Obstructs disk skips root
    (.directory entries access) q e) :
    Eligible disk skips root (.directory entries access) p ↔
      ∃ path doc, RootHappens disk skips root entries access p (.ok (.document path doc)) := by
  simp only [document_happens_iff hroot hwf, Eligible, skipsFile_eq_false]
  constructor
  · rintro ⟨d, name, rfl, hd, hkind, hsuffix⟩
    refine ⟨_, _, ⟨d, name, rfl, hd, ?_, hsuffix⟩, rfl, rfl⟩
    rcases hkind with hfile | ⟨target, hat, hno⟩
    · exact .inl hfile
    · refine .inr ⟨target, hat, ?_⟩
      cases hlink : leadsToDirectory disk (Path.listed (pathBelow root d) name) with
      | error e =>
        exact absurd ⟨d, name, target, rfl, hd, hat, leadsToDirectory_error.1 hlink⟩
          (hclear _ e)
      | ok b =>
        cases b with
        | true => exact absurd (leadsToDirectory_true.1 hlink) hno
        | false => rfl
  · rintro ⟨path, doc, ⟨d, name, rfl, hd, hkind, hsuffix⟩, -, -⟩
    refine ⟨d, name, rfl, hd, ?_, hsuffix⟩
    rcases hkind with hfile | ⟨target, hat, hlink⟩
    · exact .inl hfile
    · refine .inr ⟨target, hat, fun hto => ?_⟩
      rw [leadsToDirectory_true.2 hto] at hlink
      simp at hlink

variable (hdone : (walk disk skips root).stopped = none)

include hdone

theorem documents_of_completed :
    ∃ places : List Location, places.Pairwise (· < ·) ∧
      (∀ p, p ∈ places ↔ Eligible disk skips root (.directory entries access) p) ∧
      (walk disk skips root).documents =
        places.map fun p => documentAt disk (pathBelow root p) p := by
  have hclear := (completed_iff_unobstructed hroot hwf).1 hdone
  obtain ⟨places, hsorted, hmem, heq⟩ :=
    (traces_walk hroot hwf).select hdone (g := Visit.document?)
      (f := fun p => documentAt disk (pathBelow root p) p) (by
        intro q v y hv hy
        cases v with
        | document path doc =>
          rw [← ((document_happens_iff hroot hwf).1 hv).2.2]
          exact (Option.some.inj hy).symm
        | unlisted path relative e => simp [Visit.document?] at hy)
  refine ⟨places, hsorted, fun p => ?_, heq⟩
  rw [hmem, eligible_iff_document hroot hwf hclear]
  constructor
  · rintro ⟨v, hv, hsome⟩
    cases v with
    | document path doc => exact ⟨path, doc, hv⟩
    | unlisted path relative e => simp [Visit.document?] at hsome
  · rintro ⟨path, doc, hv⟩
    exact ⟨_, hv, rfl⟩

theorem unlisted_of_completed :
    ∃ places : List Location, places.Pairwise (· < ·) ∧
      (∀ p, p ∈ places ↔ Unlistable skips root (.directory entries access) p) ∧
      (walk disk skips root).unlisted =
        places.map fun p => (relativeText p, listingError root p) := by
  obtain ⟨places, hsorted, hmem, heq⟩ :=
    (traces_walk hroot hwf).select hdone (g := Visit.unlisted?)
      (f := fun p => (relativeText p, listingError root p)) (by
        intro q v y hv hy
        cases v with
        | document path doc => simp [Visit.unlisted?] at hy
        | unlisted path relative e =>
          obtain ⟨-, -, rfl, rfl⟩ := (unlisted_happens_iff hroot hwf).1 hv
          exact (Option.some.inj hy).symm)
  refine ⟨places, hsorted, fun p => ?_, heq⟩
  rw [hmem]
  constructor
  · rintro ⟨v, hv, hsome⟩
    cases v with
    | document path doc => simp [Visit.unlisted?] at hsome
    | unlisted path relative e => exact ((unlisted_happens_iff hroot hwf).1 hv).1
  · intro hp
    exact ⟨.unlisted _ _ _, (unlisted_happens_iff hroot hwf).2 ⟨hp, rfl, rfl, rfl⟩, rfl⟩

end Root

theorem Eligible.at? {top : Node} (h : Eligible disk skips root top p) :
    ∃ n, top.at? p = some n := by
  obtain ⟨d, name, -, -, ⟨bytes, w, hat⟩ | ⟨target, hat, -⟩, -⟩ := h
  · exact ⟨_, hat⟩
  · exact ⟨_, hat⟩

theorem Unlistable.at? {top : Node} (h : Unlistable skips root top p) :
    ∃ n, top.at? p = some n := by
  obtain ⟨⟨inner, w, hat⟩, -⟩ := h
  exact ⟨_, hat⟩

theorem nodup_relativeTexts {top : Node} (htop : top.WellFormed) {places : List Location}
    (hsorted : places.Pairwise (· < ·)) (hat : ∀ p ∈ places, ∃ n, top.at? p = some n) :
    (places.map relativeText).Nodup := by
  rw [List.Nodup, List.pairwise_map]
  refine hsorted.imp_of_mem fun {p q} hp hq hlt heq => ?_
  obtain ⟨n, hn⟩ := hat p hp
  obtain ⟨m, hm⟩ := hat q hq
  have hpq := relativeText_inj (htop.isName_of_at? hn) (htop.isName_of_at? hm) heq
  rw [hpq] at hlt
  exact List.lt_irrefl q hlt

/-- No file is lost: it is in the documents, or left out by a skip list, or below a reported
directory. -/
theorem file_accounted (disk : Disk) (skips : Config.Skips) (root : String) {top : Node}
    {bytes : List UInt8} (htop : top.isDirectory = true)
    (hat : top.at? p = some (.file bytes access)) :
    Eligible disk skips root top p ∨
      (∃ name s, p.getLast? = some name ∧ Path.IsSuffix name s ∧
        Text.lower s ∈ skips.extensions) ∨
      (∃ name ∈ p.dropLast, name ∈ skips.dirs) ∨
      ∃ q, q <+: p ∧ q ≠ p ∧ Unlistable skips root top q := by
  induction p using List.reverseRecOn with
  | nil =>
    rw [Node.at?_nil] at hat
    obtain rfl := Option.some.inj hat
    simp [Node.isDirectory] at htop
  | append_singleton d name =>
    by_cases hkept : ∀ c ∈ d, c ∉ skips.dirs
    · obtain ⟨inner, w, hd, -⟩ := Node.at?_append_some hat
      rcases opened_or_unlistable root hd hkept with hopen | ⟨q, hq, hun⟩
      · -- Its directory is opened, so only the suffix can keep the file out.
        by_cases hs : Text.lower (Path.suffix name) ∈ skips.extensions
        · exact .inr (.inl ⟨name, _, by simp, Path.isSuffix_iff.2 rfl, hs⟩)
        · exact .inl ⟨d, name, rfl, hopen, .inl ⟨bytes, access, hat⟩, _,
            Path.isSuffix_iff.2 rfl, hs⟩
      · refine .inr (.inr (.inr ⟨q, hq.trans (List.prefix_append d [name]), ?_, hun⟩))
        rintro rfl
        have hlen := hq.length_le
        rw [List.length_append, List.length_singleton] at hlen
        omega
    · refine .inr (.inr (.inl ?_))
      simpa using hkept

/-- A walk that is not stopped meets each eligible entry in one document and nothing else, and it
reports each directory that it comes to and cannot list, once. Hence no file is lost silently. -/
theorem walk_meets_exactly_eligible (disk : Disk) (hdisk : disk.root.WellFormed) (root : String)
    (entries : List (String × Node)) (access : Access)
    (hroot : disk.node root = .ok (.directory entries access)) (dirs extensions : List String) :
    Config.skipsOf (some (Config.strings dirs)) (some (Config.strings extensions)) =
      .ok (.ofStrings dirs extensions) ∧
    ((walk disk (.ofStrings dirs extensions) root).stopped = none →
      (∃ places : List Location,
        (∀ p, p ∈ places ↔
          Eligible disk (.ofStrings dirs extensions) root (.directory entries access) p) ∧
        (walk disk (.ofStrings dirs extensions) root).documents =
          places.map (fun p => documentAt disk (pathBelow root p) p) ∧
        (places.map relativeText).Nodup) ∧
      (∃ places : List Location,
        (∀ p, p ∈ places ↔
          Unlistable (.ofStrings dirs extensions) root (.directory entries access) p) ∧
        (walk disk (.ofStrings dirs extensions) root).unlisted.map (·.1) =
          places.map relativeText ∧
        (places.map relativeText).Nodup) ∧
      ∀ p bytes w, Node.at? (.directory entries access) p = some (.file bytes w) →
        documentAt disk (pathBelow root p) p ∈
          (walk disk (.ofStrings dirs extensions) root).documents ∨
        (∃ name s, p.getLast? = some name ∧ Path.IsSuffix name s ∧
          Text.lower s ∈ extensions.map Text.lower) ∨
        (∃ name ∈ p.dropLast, name ∈ dirs) ∨
        ∃ q, q <+: p ∧ q ≠ p ∧
          relativeText q ∈ (walk disk (.ofStrings dirs extensions) root).unlisted.map (·.1)) := by
  have hwf := Disk.wellFormed_node hdisk hroot
  refine ⟨Config.skipsOf_strings dirs extensions, fun hdone => ?_⟩
  obtain ⟨met, hmet, hmem, hdocs⟩ := documents_of_completed hroot hwf hdone
  obtain ⟨shut, hshut, hmemShut, hreported⟩ := unlisted_of_completed hroot hwf hdone
  have htexts : (walk disk (.ofStrings dirs extensions) root).unlisted.map (·.1) =
      shut.map relativeText := by
    rw [hreported, List.map_map]
    rfl
  refine ⟨⟨met, hmem, hdocs, ?_⟩, ⟨shut, hmemShut, htexts, ?_⟩, fun p bytes w hat => ?_⟩
  · exact nodup_relativeTexts hwf hmet fun p hp => ((hmem p).1 hp).at?
  · exact nodup_relativeTexts hwf hshut fun p hp => ((hmemShut p).1 hp).at?
  · rcases file_accounted disk (.ofStrings dirs extensions) root rfl hat with
      heligible | hsuffix | hdir | ⟨q, hq, hne, hun⟩
    · exact .inl (hdocs ▸ List.mem_map_of_mem ((hmem p).2 heligible))
    · exact .inr (.inl hsuffix)
    · exact .inr (.inr (.inl hdir))
    · exact .inr (.inr (.inr ⟨q, hq, hne, htexts ▸ List.mem_map_of_mem ((hmemShut q).2 hun)⟩))

/-- Each kind of entry once: a directory that must not be read, a file, a dangling link, a pipe and a link back
to the directory itself. -/
def sampleEntries : List (String × Node) :=
  [("a", .directory [("x", .file [] .full)] { read := false }), ("b.txt", .file [104, 105] .full),
    ("gone", .link "nowhere"), ("p", .pipe), ("up", .link "/r")]

def sampleDisk : Disk := ⟨.directory [("r", .directory sampleEntries .full)] .full, ["r"]⟩

theorem wellFormed_sampleDisk : sampleDisk.root.WellFormed := by
  have hclosed : Node.WellFormed (.directory [("x", .file [] .full)] { read := false }) :=
    .directory _ (by decide) (by decide) (by simp [Node.WellFormed.file])
  have htop : Node.WellFormed (.directory sampleEntries .full) := by
    apply Node.WellFormed.directory _ (by decide) (by decide)
    simp only [sampleEntries, List.forall_mem_cons]
    exact ⟨hclosed, .file _ _, .link _, .pipe, .link _, by simp⟩
  exact .directory _ (by decide) (by decide) (by simpa using htop)

theorem walk_sampleDisk : walk sampleDisk .default "/r" =
    ⟨[.unlisted "/r/a" "a" ⟨.denied, "/r/a"⟩,
      .document "/r/b.txt" ⟨"b.txt", some "hi", .file, none, none⟩,
      .document "/r/gone" (documentAt sampleDisk "/r/gone" ["gone"])], none⟩ := by
  have hroot : sampleDisk.node "/r" = .ok (.directory sampleEntries .full) := rfl
  rw [walk_of_ascending hroot rfl (by decide)]
  decide

theorem walk_meets_exactly_eligible_sample :
    sampleDisk.root.WellFormed ∧
    sampleDisk.node "/r" = .ok (.directory sampleEntries .full) ∧
    (walk sampleDisk .default "/r").stopped = none ∧
    ∃ places : List Location,
      (∀ p, p ∈ places ↔
        Eligible sampleDisk .default "/r" (.directory sampleEntries .full) p) ∧
      places.map relativeText = ["b.txt", "gone"] := by
  have hdone : (walk sampleDisk .default "/r").stopped = none := by
    rw [walk_sampleDisk]
  obtain ⟨-, h⟩ := walk_meets_exactly_eligible sampleDisk wellFormed_sampleDisk "/r" sampleEntries
    .full rfl Config.defaultSkipDirs Config.defaultSkipExtensions
  obtain ⟨⟨places, hmem, hdocs, -⟩, -, -⟩ := h hdone
  refine ⟨wellFormed_sampleDisk, rfl, hdone, places, hmem, ?_⟩
  have hpaths : (walk sampleDisk .default "/r").documents.map Document.path =
      places.map relativeText := by
    apply (congrArg (List.map Document.path) hdocs).trans
    rw [List.map_map]
    exact List.map_congr_left fun p _ => path_documentAt _ _ p
  rw [← hpaths, walk_sampleDisk]
  rfl

end Walk

end LeakScan
