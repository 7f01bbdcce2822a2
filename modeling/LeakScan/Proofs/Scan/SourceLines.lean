import LeakScan.Proofs.Document.Lines
import LeakScan.Proofs.Scan.Strict
import LeakScan.Proofs.Text.LineEnds
import LeakScan.Proofs.Walk.Alike
import LeakScan.Proofs.Walk.Reading

namespace LeakScan

variable {disk disk' : Disk} {given root : String} {config : Option Config} {clock : Clock}
  {m : Catalog.Mode} {s : Detector} {d : Document} {f : KeyFinding} {content : List Char}

theorem Catalog.secrets_of_mode (hs : s ∈ (ofMode m).secrets) : s ∈ Detector.secrets := by
  cases m <;> exact (List.mem_filter.1 hs).1

theorem Detector.secrets_unbroken (hs : s ∈ secrets) : s.pattern.Unbroken := by
  have h : (secrets.all fun d => d.pattern.avoids '\r') = true := by decide
  have hreturn := List.all_eq_true.1 h s hs
  exact fun w hw => ⟨Pattern.not_mem_of_avoids hreturn hw,
    Pattern.not_mem_of_avoids (secrets_avoid_feed hs) hw⟩

namespace Document

variable (htext : d.text = some (String.ofList (Text.uniformLineEnds content)))

include htext

theorem line_of_source (hf : f ∈ d.keyFindings (.ofMode m)) :
    ∃ s ∈ (Catalog.ofMode m).secrets, f.service = s.name ∧ ∃ i, s.pattern.Leftmost content i ∧
      f.line = some ((Text.lineEnds (content.take i) : Int) + 1) := by
  obtain ⟨s, hs, found, hfound, rfl⟩ := (mem_keyFindings htext).1 hf
  have hsecret := Catalog.secrets_of_mode hs
  rw [String.toList_ofList] at hfound
  obtain ⟨i, hi, hcount⟩ := Pattern.leftmost_of_uniformLineEnds (Detector.secrets_unbroken hsecret)
    (Pattern.search_some hfound).1
  refine ⟨s, hs, rfl, i, hi, ?_⟩
  rw [hcount]
  simp [keyFinding, Pattern.lineOf_match (Detector.secrets_avoid_feed hsecret) hfound]

theorem exists_key_of_source (hs : s ∈ (Catalog.ofMode m).secrets) :
    (∃ f ∈ d.keyFindings (.ofMode m), f.service = s.name) ↔ s.pattern.Occurs content := by
  have hsecret := Catalog.secrets_of_mode hs
  rw [← Pattern.occurs_uniformLineEnds (Detector.secrets_unbroken hsecret),
    ← Pattern.isSome_search, Option.isSome_iff_exists]
  constructor
  · rintro ⟨f, hf, hname⟩
    obtain ⟨t, ht, found, hfound, rfl⟩ := (mem_keyFindings htext).1 hf
    obtain rfl := Detector.eq_of_name_eq
      (List.mem_append_left _ (Catalog.secrets_of_mode ht)) (List.mem_append_left _ hsecret) hname
    rw [String.toList_ofList] at hfound
    exact ⟨found, hfound⟩
  · rintro ⟨found, hfound⟩
    rw [← String.toList_ofList (l := Text.uniformLineEnds content)] at hfound
    exact ⟨_, (mem_keyFindings htext).2 ⟨s, hs, found, hfound, rfl⟩, rfl⟩

omit htext

theorem text_of_keyFindings {catalog : Catalog} (hf : f ∈ d.keyFindings catalog) :
    ∃ text, d.text = some text := by
  unfold keyFindings at hf
  split at hf
  · simp at hf
  · next text htext => exact ⟨text, htext⟩

end Document

theorem isAbsolute_of_validateDirectory (h : (validateDirectory disk given).result = .ok root) :
    Path.isAbsolute root = true := by
  obtain ⟨place, entries, access, -, rfl, -⟩ := accepted_of_validateDirectory h
  exact Path.isAbsolute_ofLocation place

def SameLines (bytes bytes' : List UInt8) : Prop :=
  bytes = bytes' ∨ ∃ content content', Text.decodeUtf8 bytes = .ok content ∧
    Text.decodeUtf8 bytes' = .ok content' ∧ Text.sourceLines content = Text.sourceLines content'

theorem blind_sameLines : Walk.Blind SameLines where
  empty := .inl rfl
  text := by
    rintro bytes bytes' (rfl | ⟨content, content', hc, hc', hlines⟩)
    · rfl
    · rw [textOfBytes, textOfBytes, hc, hc', Except.map, Except.map,
        Text.uniformLineEnds_eq_iff.2 hlines]

section Alike

variable {r : List UInt8 → List UInt8 → Prop} (h : disk.Alike r disk')
  (hdisk : disk.root.WellFormed)

include h hdisk

theorem validateDirectory_alike : validateDirectory disk' given = validateDirectory disk given := by
  unfold validateDirectory
  simp only [h.canonical_eq hdisk, h.isPresent_eq hdisk, h.isDirectory_eq hdisk]

theorem scanDirectory_alike (hr : Walk.Blind r) :
    (scanDirectory disk' given config clock).result =
      (scanDirectory disk given config clock).result := by
  rw [result_scanDirectory, result_scanDirectory, validateDirectory_alike h hdisk]
  congr 1
  funext root
  split
  · rfl
  · rw [Walk.walk_alike h hdisk hr]

end Alike

section Root

variable {skips : Config.Skips} {entries : List (String × Node)} {access : Access}
  {report : Report} {p : Location}
  (hroot : disk.node root = .ok (.directory entries access))
  (hwf : Node.WellFormed (.directory entries access))

include hroot hwf

theorem mem_keys_iff {catalog : Catalog}
    (hreport : reportWalk catalog root clock (walk disk skips root) = .ok report) :
    f ∈ report.keys ↔ ∃ q, Walk.Eligible disk skips root (.directory entries access) q ∧
      f ∈ (documentAt disk (Walk.pathBelow root q) q).keyFindings catalog := by
  obtain ⟨hdone, -, hfolds⟩ := folds_of_reportWalk hreport
  obtain ⟨met, -, hmem, hdocs⟩ := Walk.documents_of_completed hroot hwf hdone
  simp only [hfolds.keys, hdocs, List.mem_flatMap, List.mem_map, Document.keys_findings, ← hmem]
  constructor
  · rintro ⟨_, ⟨q, hq, rfl⟩, hf⟩
    exact ⟨q, hq, hf⟩
  · rintro ⟨q, hq, hf⟩
    exact ⟨_, ⟨q, hq, rfl⟩, hf⟩

theorem mem_keys_at {catalog : Catalog} {n : Node}
    (hreport : reportWalk catalog root clock (walk disk skips root) = .ok report)
    (hat : Node.at? (.directory entries access) p = some n) :
    f ∈ report.keys ∧ f.file = relativeText p ↔
      Walk.Eligible disk skips root (.directory entries access) p ∧
        f ∈ (documentAt disk (Walk.pathBelow root p) p).keyFindings catalog := by
  rw [mem_keys_iff hroot hwf hreport]
  constructor
  · rintro ⟨⟨q, hq, hf⟩, hfile⟩
    obtain ⟨k, hk⟩ := hq.at?
    have hpath : f.file = relativeText q := by
      rw [Document.file_of_keyFindings hf, path_documentAt]
    obtain rfl := relativeText_inj (hwf.isName_of_at? hk) (hwf.isName_of_at? hat)
      (hpath.symm.trans hfile)
    exact ⟨hq, hf⟩
  · rintro ⟨hp, hf⟩
    exact ⟨⟨p, hp, hf⟩, by rw [Document.file_of_keyFindings hf, path_documentAt]⟩

end Root

/-- Every key that a directory's report gives for a file stands on the line that counts the line
ends before the leftmost match in the file itself, and it is given exactly if there is one. On a
disk whose files have the same lines, however they end, the report is the same. -/
theorem key_lines_of_source (disk : Disk) (hdisk : disk.root.WellFormed) (given : String)
    (config : Option Config) (clock : Clock) (report : Report)
    (h : (scanDirectory disk given config clock).result = .ok report) :
    ∃ root entries access skips,
      (validateDirectory disk given).result = .ok root ∧
      disk.node root = .ok (.directory entries access) ∧
      (Config.orDefault config).skips = .ok skips ∧
      (∀ p bytes content, Walk.HoldsFile disk root (.directory entries access) p bytes →
        Text.decodeUtf8 bytes = .ok content →
        (∀ f ∈ report.keys, f.file = relativeText p →
          ∃ s ∈ (Catalog.ofMode (Config.orDefault config).mode).secrets, f.service = s.name ∧
            ∃ i, s.pattern.Leftmost content i ∧
              f.line = some ((Text.lineEnds (content.take i) : Int) + 1)) ∧
        (Walk.Eligible disk skips root (.directory entries access) p →
          (documentAt disk (Walk.pathBelow root p) p).readError = none →
          ∀ s ∈ (Catalog.ofMode (Config.orDefault config).mode).secrets,
            (∃ f ∈ report.keys, f.file = relativeText p ∧ f.service = s.name) ↔
              s.pattern.Occurs content)) ∧
      (∀ disk', disk.Alike SameLines disk' →
        (scanDirectory disk' given config clock).result = .ok report) ∧
      ∀ e ∈ Text.endings, ∀ ls : List (List Char), ls ≠ [] → (∀ l ∈ ls, Text.Unbroken l) →
        Text.sourceLines (e.intercalate ls) = ls := by
  obtain ⟨root, skips, hvalid, hskips, hreport⟩ := ok_scanDirectory h
  obtain ⟨entries, access, hroot⟩ := node_of_validateDirectory hvalid
  have hwf := Disk.wellFormed_node hdisk hroot
  have habsolute := isAbsolute_of_validateDirectory hvalid
  refine ⟨root, entries, access, skips, hvalid, hroot, hskips, ?_, ?_, ?_⟩
  · intro p bytes content hfile hcontent
    obtain ⟨n, hat⟩ := hfile.at?
    have hsource {text : String}
        (htext : (documentAt disk (Walk.pathBelow root p) p).text = some text) :
        (documentAt disk (Walk.pathBelow root p) p).text =
          some (String.ofList (Text.uniformLineEnds content)) := by
      rw [htext, hfile.text hroot habsolute hwf hcontent htext]
    -- A finding at a place is one of the document there: no other place is written alike.
    refine ⟨fun f hf hplace => ?_, fun heligible hread s hs => ?_⟩
    · obtain ⟨-, hf⟩ := (mem_keys_at hroot hwf hreport hat).1 ⟨hf, hplace⟩
      obtain ⟨text, htext⟩ := Document.text_of_keyFindings hf
      exact Document.line_of_source (hsource htext) hf
    · obtain ⟨text, htext⟩ := Walk.text_of_readError hread
      rw [← Document.exists_key_of_source (hsource htext) hs]
      refine exists_congr fun f => ?_
      rw [← and_assoc, mem_keys_at hroot hwf hreport hat, and_iff_right heligible]
  · intro disk' halike
    rw [scanDirectory_alike halike hdisk blind_sameLines, h]
  · intro e he ls hne hls
    exact Text.sourceLines_intercalate he hne hls

def mixedText : List Char :=
  "one\r\ntwo\rthree\r\r\nsk-abcdefghabcdefghabcdefghabcdefghabcdefghabcdefgh".toList

def feedText : List Char :=
  "one\ntwo\nthree\n\nsk-abcdefghabcdefghabcdefghabcdefghabcdefghabcdefgh".toList

def keyEntries (bytes : List UInt8) : List (String × Node) := [("k", .file bytes .full)]

def keyDisk (bytes : List UInt8) : Disk :=
  ⟨.directory [("r", .directory (keyEntries bytes) .full)] .full, ["r"]⟩

theorem wellFormed_keyDisk (bytes : List UInt8) : (keyDisk bytes).root.WellFormed := by
  have hk : Node.IsName "k" := by decide
  have hr : Node.IsName "r" := by decide
  have hinner : Node.WellFormed (.directory (keyEntries bytes) .full) :=
    .directory _ (by simp [keyEntries]) (by simpa [keyEntries] using hk)
      (by simp [keyEntries, Node.WellFormed.file])
  exact .directory _ (by simp) (by simpa using hr) (by simpa using hinner)

theorem alike_keyDisk {bytes bytes' : List UInt8} (h : SameLines bytes bytes') :
    (keyDisk bytes).Alike SameLines (keyDisk bytes') := by
  have hfile := Node.Alike.file .full h
  have hinner : Node.Alike SameLines (.directory (keyEntries bytes) .full)
      (.directory (keyEntries bytes') .full) :=
    .directory _ (by simp [keyEntries]) (by simpa [keyEntries] using hfile)
  exact ⟨.directory _ (by simp) (by simpa using hinner), rfl⟩

theorem walk_keyDisk (bytes : List UInt8) : walk (keyDisk bytes) .default "/r" =
    .visit (.document "/r/k" (documentAt (keyDisk bytes) "/r/k" ["k"])) := by
  have hroot : (keyDisk bytes).node "/r" = .ok (.directory (keyEntries bytes) .full) := rfl
  have hpath : Path.below "/r" "k" = "/r/k" := by decide
  have hskip : skipsFile .default "k" = false := by decide
  rw [Walk.walk_of_readable hroot rfl]
  simp [keyEntries, walkEntries, walkEntry, walkFile, Walk.inOrder, hpath, hskip, Walk.append,
    Walk.nothing, Walk.visit]

theorem key_lines_of_source_mixed :
    (keyDisk (Text.encodeUtf8 mixedText)).root.WellFormed ∧
    (keyDisk (Text.encodeUtf8 mixedText)).Alike SameLines (keyDisk (Text.encodeUtf8 feedText)) ∧
    ∃ report, (scanDirectory (keyDisk (Text.encodeUtf8 mixedText)) "/r" none sampleClock).result =
        .ok report ∧
      (scanDirectory (keyDisk (Text.encodeUtf8 feedText)) "/r" none sampleClock).result =
        .ok report ∧
      ∃ f ∈ report.keys, f.file = "k" ∧ f.service = "OpenAI" ∧ f.line = some 5 := by
  have hmixed : Text.decodeUtf8 (Text.encodeUtf8 mixedText) = .ok mixedText := by decide
  have hfeed : Text.decodeUtf8 (Text.encodeUtf8 feedText) = .ok feedText := by decide
  have hlines : SameLines (Text.encodeUtf8 mixedText) (Text.encodeUtf8 feedText) :=
    .inr ⟨mixedText, feedText, hmixed, hfeed, by decide⟩
  generalize Text.encodeUtf8 mixedText = bytes, Text.encodeUtf8 feedText = bytes' at *
  have hdisk := wellFormed_keyDisk bytes
  have halike := alike_keyDisk hlines
  have hvalid : (validateDirectory (keyDisk bytes) "/r").result = .ok "/r" := rfl
  have hdefault : (Config.orDefault none).skips = .ok .default := Config.skips_default
  have hscan : ∃ report, (scanDirectory (keyDisk bytes) "/r" none sampleClock).result =
      .ok report := by
    rw [result_of_valid hvalid hdefault, walk_keyDisk]
    exact ⟨_, rfl⟩
  obtain ⟨report, h⟩ := hscan
  obtain ⟨root, entries, access, skips, hroot, hnode, hskips, hkeys, hsame, -⟩ :=
    key_lines_of_source (keyDisk bytes) hdisk "/r" none sampleClock report h
  obtain rfl := Except.ok.inj (hvalid.symm.trans hroot)
  obtain rfl := Except.ok.inj (hdefault.symm.trans hskips)
  have hentries : (keyDisk bytes).node "/r" = .ok (.directory (keyEntries bytes) .full) := rfl
  obtain ⟨rfl, rfl⟩ := Node.directory.inj (Except.ok.inj (hentries.symm.trans hnode))
  obtain ⟨hline, hfound⟩ := hkeys ["k"] bytes mixedText (.inl ⟨.full, rfl⟩) hmixed
  have heligible : Walk.Eligible (keyDisk bytes) .default "/r"
      (.directory (keyEntries bytes) .full) ["k"] := by
    have hopened : Walk.Opened .default "/r" (.directory (keyEntries bytes) .full) [] :=
      Walk.opened_nil.2 (Walk.listable_nil.2 ⟨⟨keyEntries bytes, .full, rfl, rfl⟩, by decide⟩)
    exact ⟨[], "k", rfl, hopened, .inl ⟨bytes, .full, rfl⟩, _, Path.isSuffix_iff.2 rfl,
      by decide⟩
  have hread : (documentAt (keyDisk bytes) "/r/k" ["k"]).readError = none := by
    have hbytes : (keyDisk bytes).readAt "/r/k" = .ok bytes := rfl
    rw [documentAt, hbytes]
    simp [textOfBytes, hmixed, Except.map]
  have hopenAI : Detector.openAI ∈ (Catalog.ofMode (Config.orDefault none).mode).secrets :=
    List.mem_cons_self
  have hsearch : (Detector.openAI.pattern.search mixedText).map Pattern.Match.start = some 17 := by
    decide
  obtain ⟨found, hsearch, hstart⟩ := Option.map_eq_some_iff.1 hsearch
  obtain ⟨f, hf, hfile, hservice⟩ := (hfound heligible hread Detector.openAI hopenAI).2
    (Pattern.isSome_search.1 (by rw [hsearch]; rfl))
  obtain ⟨s, hs, hname, i, hi, hfline⟩ := hline f hf hfile
  obtain rfl := Detector.eq_of_name_eq (List.mem_append_left _ (Catalog.secrets_of_mode hs))
    (List.mem_append_left _ (Catalog.secrets_of_mode hopenAI)) (hname.symm.trans hservice)
  obtain rfl := hi.unique (hstart ▸ (Pattern.search_some hsearch).1)
  refine ⟨hdisk, halike, report, h, hsame _ halike, f, hf, hfile, hservice, ?_⟩
  rw [hfline]
  decide

end LeakScan
