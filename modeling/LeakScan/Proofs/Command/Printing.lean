import LeakScan.Proofs.Json.Ascii
import LeakScan.Proofs.Scan.Strict

namespace LeakScan

theorem isAscii_toString (n : Nat) : IsAscii (toString n).toList := by
  rw [Nat.toString_eq_repr, Nat.toList_repr]
  exact .toDigits n

namespace Report

variable {r : Report} {text headline : String} {lines : List String}

theorem mem_part : text ∈ part headline lines ↔ lines ≠ [] ∧ (text = headline ∨ text ∈ lines) := by
  unfold part
  cases lines with
  | nil => simp
  | cons line lines => simp

theorem isAscii_breakdownLine (r : Report) : IsAscii r.breakdownLine.toList := by
  delta breakdownLine
  simp only [String.toList_append, IsAscii.append_iff]
  exact ⟨⟨⟨⟨⟨⟨by decide, isAscii_toString _⟩, by decide⟩, isAscii_toString _⟩, by decide⟩,
    isAscii_toString _⟩, by decide⟩

theorem headLines_narrowed (h : text ∈ r.narrowed.headLines) :
    text ∈ r.headLines ∨ IsAscii text.toList := by
  have hduration : r.narrowed.durationLine = r.durationLine := rfl
  have htarget : r.narrowed.target = r.target := rfl
  have hscanned : r.narrowed.filesScanned = r.filesScanned := rfl
  rw [headLines, hduration, htarget, hscanned] at h
  rw [headLines]
  simp only [List.mem_cons, List.not_mem_nil, or_false] at h ⊢
  rcases h with h | h | h | h | rfl | rfl | h
  · exact .inl (.inl h)
  · exact .inl (.inr (.inl h))
  · exact .inl (.inr (.inr (.inl h)))
  · exact .inl (.inr (.inr (.inr (.inl h))))
  · rw [String.toList_append, IsAscii.append_iff]
    exact .inr ⟨by decide, isAscii_toString _⟩
  · rw [String.toList_append, IsAscii.append_iff]
    refine .inr ⟨by decide, ?_⟩
    cases r.narrowed.risk <;> decide
  · exact .inl (.inr (.inr (.inr (.inr (.inr (.inr h))))))

theorem keyLines_narrowed (h : text ∈ part headline (r.narrowed.keys.map keyLine)) :
    text ∈ part headline (r.keys.map keyLine) := by
  rw [mem_part] at h ⊢
  have hsub : r.narrowed.keys.map keyLine ⊆ r.keys.map keyLine :=
    (List.filter_sublist.map keyLine).subset
  exact ⟨fun hnil => h.1 (List.subset_nil.1 (hnil ▸ hsub)), h.2.imp_right (hsub ·)⟩

theorem summaryLines_narrowed (h : text ∈ r.narrowed.summaryLines) :
    text ∈ r.summaryLines ∨ IsAscii text.toList := by
  have hfiles : r.narrowed.sensitiveFiles = r.sensitiveFiles := rfl
  have hcode : r.narrowed.codeIssues = r.codeIssues := rfl
  have herrors : r.narrowed.errors = r.errors := rfl
  rw [summaryLines, hfiles, hcode, herrors] at h
  rw [summaryLines]
  simp only [List.mem_append, List.mem_singleton] at h ⊢
  rcases h with ((((h | h) | h) | h) | h) | rfl
  · exact (headLines_narrowed h).imp_left fun h => .inl (.inl (.inl (.inl (.inl h))))
  · exact .inl (.inl (.inl (.inl (.inl (.inr (keyLines_narrowed h))))))
  · exact .inl (.inl (.inl (.inl (.inr h))))
  · exact .inl (.inl (.inl (.inr h)))
  · exact .inl (.inl (.inr h))
  · exact .inr r.narrowed.isAscii_breakdownLine

end Report

namespace Command

variable {console : Console} {disk after : Disk} {setting : Setting} {o : ScanOptions} {r : Report}
  {text : String} {texts : List String} {announce : Bool} {next : Disk → Outcome} {l : List Sheet}

def Console.Takes (console : Console) (texts : List String) : Prop :=
  ∀ text ∈ texts, console.refusal? text = none

/-- A run ends where standard output refuses one of some texts. -/
def Console.Breaks (console : Console) (texts : List String) (exit : Except Crash Nat) : Prop :=
  ∃ text ∈ texts, ∃ words, console.refusal? text = some words ∧ exit = .error (.print words)

namespace Console

def ascii : Console where
  refusal? text := if IsAscii text.toList then none else some "ordinal not in range(128)"
  takes_ascii _ h := if_pos h

theorem refusal?_ascii {words : String} (h : ascii.refusal? text = some words) :
    words = "ordinal not in range(128)" := by
  unfold ascii at h
  dsimp only at h
  split at h
  · cases h
  · exact (Option.some.inj h).symm

theorem takes_cons : console.Takes (text :: texts) ↔
    console.refusal? text = none ∧ console.Takes texts := List.forall_mem_cons

theorem takes_append {more : List String} : console.Takes (texts ++ more) ↔
    console.Takes texts ∧ console.Takes more := List.forall_mem_append

theorem takes_render (v : Json) : console.Takes [Json.render v] :=
  takes_cons.2 ⟨console.takes_ascii _ (Json.isAscii_render v), List.forall_mem_nil _⟩

theorem Breaks.mono {more : List String} {exit : Except Crash Nat} (h : console.Breaks texts exit)
    (hsub : texts ⊆ more) : console.Breaks more exit := by
  obtain ⟨text, hmem, h⟩ := h
  exact ⟨text, hsub hmem, h⟩

end Console

theorem joinLines_cons (text : String) (texts : List String) :
    joinLines (text :: texts) = text ++ "\n" ++ joinLines texts := by
  simp [joinLines]

theorem joinLines_append (texts more : List String) :
    joinLines (texts ++ more) = joinLines texts ++ joinLines more := by
  simp [joinLines]

namespace Outcome

theorem say_taken {next : Outcome} (h : console.refusal? text = none) :
    say console disk text next = { next with output := text ++ "\n" ++ next.output } := by
  simp only [say, h]

theorem say_refused {next : Outcome} {words : String} (h : console.refusal? text = some words) :
    say console disk text next = .crash disk (.print words) "" := by
  simp only [say, h]

theorem disk_say {next : Outcome} (h : next.disk = disk) :
    (say console disk text next).disk = disk := by
  cases hrefusal : console.refusal? text with
  | some words => rw [say_refused hrefusal, crash]
  | none => rw [say_taken hrefusal, h]

theorem disk_sayAll {next : Outcome} (h : next.disk = disk) :
    (sayAll console disk texts next).disk = disk := by
  induction texts with
  | nil => exact h
  | cons text texts ih => exact disk_say ih

theorem sayAll_taken {next : Outcome} (h : console.Takes texts) :
    sayAll console disk texts next = { next with output := joinLines texts ++ next.output } := by
  induction texts with
  | nil => simp [sayAll, joinLines]
  | cons text texts ih =>
    obtain ⟨htext, htexts⟩ := Console.takes_cons.1 h
    have hrest := ih htexts
    rw [sayAll] at hrest ⊢
    rw [List.foldr_cons, hrest, say_taken htext, joinLines_cons]
    simp only [String.append_assoc]

theorem sayAll_refused {next : Outcome} (h : ¬ console.Takes texts) :
    console.Breaks texts (sayAll console disk texts next).exit ∧
      (sayAll console disk texts next).disk = disk := by
  induction texts with
  | nil => exact absurd (List.forall_mem_nil _) h
  | cons text texts ih =>
    rw [sayAll, List.foldr_cons]
    cases hrefusal : console.refusal? text with
    | some words =>
      rw [say_refused hrefusal]
      exact ⟨⟨text, List.mem_cons_self, words, hrefusal, rfl⟩, rfl⟩
    | none =>
      rw [say_taken hrefusal]
      obtain ⟨hbreaks, hdisk⟩ := ih fun htexts => h (Console.takes_cons.2 ⟨hrefusal, htexts⟩)
      exact ⟨hbreaks.mono (List.subset_cons_self text texts), hdisk⟩

end Outcome

def notices (announce : Bool) (l : List Sheet) : List String :=
  if announce then l.map Sheet.notice else []

/-- All that the run of a scan prints, if it comes to its end. -/
def printed (o : ScanOptions) (r : Report) (sarif : Json) : List String :=
  notices (o.format == .text) (sheets o r.toJson sarif) ++ shown o.format r sarif

/-- Standard output takes all that the run of a scan prints. -/
def Prints (setting : Setting) (o : ScanOptions) (r : Report) : Prop :=
  setting.console.Takes (printed o r (Sarif.ofReport r setting.job).toJson)

/-- The files are written one after the other, each on the disk that the one before it leaves. -/
inductive Written : Disk → List Sheet → Disk → Prop where
  | nil (disk : Disk) : Written disk [] disk
  | cons {disk next after : Disk} {sheet : Sheet} {rest : List Sheet} :
      disk.writeAt (Path.normal sheet.file)
        (Text.encodeUtf8 (Json.render sheet.content).toList) = .ok next →
      Written next rest after → Written disk (sheet :: rest) after

theorem writeSheets_nil : writeSheets console announce next disk [] = next disk := rfl

theorem writeSheets_cons {sheet : Sheet} : writeSheets console announce next disk (sheet :: l) =
    match disk.writeAt (Path.normal sheet.file)
      (Text.encodeUtf8 (Json.render sheet.content).toList) with
    | .error e => .crash disk (.path e) ""
    | .ok disk =>
      let onward := writeSheets console announce next disk l
      if announce then .say console disk sheet.notice onward else onward := rfl

theorem writeSheets_of_write {written : Disk} {sheet : Sheet} (hwrite : disk.writeAt
      (Path.normal sheet.file) (Text.encodeUtf8 (Json.render sheet.content).toList) = .ok written) :
    writeSheets console announce next disk (sheet :: l) =
      Outcome.sayAll console written (notices announce [sheet])
        (writeSheets console announce next written l) := by
  rw [writeSheets_cons, hwrite]
  cases announce <;> rfl

theorem notices_cons (announce : Bool) (sheet : Sheet) (l : List Sheet) :
    notices announce (sheet :: l) = notices announce [sheet] ++ notices announce l := by
  cases announce <;> rfl

namespace Written

theorem eq_of_nil (h : Written disk [] after) : after = disk := by
  cases h
  rfl

theorem taken (h : Written disk l after) (htakes : console.Takes (notices announce l)) :
    writeSheets console announce next disk l =
      { next after with output := joinLines (notices announce l) ++ (next after).output } := by
  induction h with
  | nil disk => cases announce <;> simp [writeSheets_nil, notices, joinLines]
  | @cons _ written _ sheet rest hwrite _ ih =>
    rw [notices_cons, Console.takes_append] at htakes
    rw [writeSheets_of_write hwrite, ih htakes.2, Outcome.sayAll_taken htakes.1,
      notices_cons announce sheet rest, joinLines_append]
    simp only [String.append_assoc]

theorem refused (h : Written disk l after) (hrefuses : ¬ console.Takes (notices announce l)) :
    console.Breaks (notices announce l) (writeSheets console announce next disk l).exit := by
  induction h with
  | nil disk => exact absurd (by cases announce <;> exact List.forall_mem_nil _) hrefuses
  | @cons _ written _ sheet rest hwrite _ ih =>
    rw [writeSheets_of_write hwrite, notices_cons]
    rw [notices_cons, Console.takes_append, not_and_or] at hrefuses
    by_cases hsheet : console.Takes (notices announce [sheet])
    · rw [Outcome.sayAll_taken hsheet]
      exact (ih (hrefuses.resolve_left (not_not_intro hsheet))).mono
        (List.subset_append_right _ _)
    · exact (Outcome.sayAll_refused hsheet).1.mono (List.subset_append_left _ _)

/-- Whatever standard output takes, the files that have been written come first among those that are
asked for. -/
theorem front (h : Written disk l after) (hnext : ∀ d, (next d).disk = d) :
    ∃ written, written <+: l ∧
      Written disk written (writeSheets console announce next disk l).disk := by
  induction h with
  | nil disk => exact ⟨[], List.nil_prefix, by rw [writeSheets_nil, hnext]; exact .nil disk⟩
  | @cons disk written _ sheet rest hwrite _ ih =>
    obtain ⟨more, hmore, hrest⟩ := ih
    rw [writeSheets_of_write hwrite]
    by_cases hsheet : console.Takes (notices announce [sheet])
    · rw [Outcome.sayAll_taken hsheet]
      exact ⟨sheet :: more, List.cons_prefix_cons.2 ⟨rfl, hmore⟩, .cons hwrite hrest⟩
    · rw [(Outcome.sayAll_refused hsheet).2]
      exact ⟨[sheet], List.cons_prefix_cons.2 ⟨rfl, List.nil_prefix⟩, .cons hwrite (.nil written)⟩

end Written

theorem written_or_fault (disk : Disk) (htakes : console.Takes (notices announce l)) :
    (∃ after, Written disk l after) ∨
      ∃ e, (writeSheets console announce next disk l).exit = .error (.path e) := by
  induction l generalizing disk with
  | nil => exact .inl ⟨disk, .nil disk⟩
  | cons sheet rest ih =>
    rw [notices_cons, Console.takes_append] at htakes
    cases hwrite : disk.writeAt (Path.normal sheet.file)
        (Text.encodeUtf8 (Json.render sheet.content).toList) with
    | error e => exact .inr ⟨e, by rw [writeSheets_cons, hwrite]; rfl⟩
    | ok written =>
      rcases ih written htakes.2 with ⟨after, h⟩ | ⟨e, he⟩
      · exact .inl ⟨after, .cons hwrite h⟩
      · refine .inr ⟨e, ?_⟩
        rw [writeSheets_of_write hwrite, Outcome.sayAll_taken htakes.1]
        exact he

theorem printed_json {sarif : Json} (hformat : o.format = .json) :
    printed o r sarif = [Json.render r.toJson] := by
  rw [printed, notices, hformat]
  rfl

theorem printed_sarif {sarif : Json} (hformat : o.format = .sarif) :
    printed o r sarif = [Json.render sarif] := by
  rw [printed, notices, hformat]
  rfl

theorem prints_json (hformat : o.format = .json) : Prints setting o r := by
  rw [Prints, printed_json hformat]
  exact Console.takes_render _

theorem prints_sarif (hformat : o.format = .sarif) : Prints setting o r := by
  rw [Prints, printed_sarif hformat]
  exact Console.takes_render _

/-- The headline of a summary is not ASCII. -/
theorem not_prints_ascii (hconsole : setting.console = .ascii) (hformat : o.format = .text) :
    ¬ Prints setting o r := by
  intro hprints
  have hshown := (Console.takes_append.1 hprints).2
  rw [hconsole, hformat, shown] at hshown
  have htaken := hshown _ List.mem_cons_self
  cases htaken

theorem publish_of_prints
    (h : Written disk (sheets o r.toJson (Sarif.ofReport r setting.job).toJson) after)
    (hprints : Prints setting o r) :
    publish disk setting o r = ⟨o.failOn.code r.risk,
      joinLines (printed o r (Sarif.ofReport r setting.job).toJson), "", [], after⟩ := by
  obtain ⟨hnotices, hshown⟩ := Console.takes_append.1 hprints
  simp only [publish, h.taken hnotices, Outcome.sayAll_taken hshown, printed, joinLines_append,
    String.append_empty]

theorem publish_refused
    (h : Written disk (sheets o r.toJson (Sarif.ofReport r setting.job).toJson) after)
    (hrefuses : ¬ Prints setting o r) :
    setting.console.Breaks (printed o r (Sarif.ofReport r setting.job).toJson)
      (publish disk setting o r).exit := by
  rw [Prints, printed, Console.takes_append, not_and_or] at hrefuses
  unfold publish printed
  by_cases hnotices : setting.console.Takes (notices (o.format == .text)
      (sheets o r.toJson (Sarif.ofReport r setting.job).toJson))
  · have hshown := hrefuses.resolve_left (not_not_intro hnotices)
    simp only [h.taken hnotices]
    exact (Outcome.sayAll_refused hshown).1.mono (List.subset_append_right _ _)
  · exact (h.refused hnotices).mono (List.subset_append_left _ _)

theorem disk_publish
    (h : Written disk (sheets o r.toJson (Sarif.ofReport r setting.job).toJson) after) :
    ∃ written, written <+: sheets o r.toJson (Sarif.ofReport r setting.job).toJson ∧
      Written disk written (publish disk setting o r).disk :=
  h.front fun _ => Outcome.disk_sayAll rfl

theorem written_or_broken (disk : Disk) (hprints : Prints setting o r) :
    (∃ after, Written disk (sheets o r.toJson (Sarif.ofReport r setting.job).toJson) after) ∨
      ∃ e, (publish disk setting o r).exit = .error (.path e) :=
  written_or_fault disk (Console.takes_append.1 hprints).1

theorem notices_sheets (announce : Bool) (o : ScanOptions) (x y x' y' : Json) :
    notices announce (sheets o x y) = notices announce (sheets o x' y') := by
  have hpart (file : Option String) (v v' : Json) (title : String) :
      ((file.toList.map (Sheet.mk · v title)).filter fun s => !s.file.isEmpty).map Sheet.notice =
        ((file.toList.map (Sheet.mk · v' title)).filter fun s => !s.file.isEmpty).map
          Sheet.notice := by
    cases file with
    | none => rfl
    | some file => cases hempty : file.isEmpty <;> simp [hempty, Sheet.notice]
  simp only [notices, sheets, List.filter_append, List.map_append, hpart _ x x', hpart _ y y']

theorem Prints.strict (h : Prints setting o r) :
    Prints setting { o with strict := true } r.narrowed := by
  obtain ⟨hnotices, hshown⟩ := Console.takes_append.1 h
  have hsheets (x y : Json) : sheets { o with strict := true } x y = sheets o x y := rfl
  refine Console.takes_append.2 ⟨?_, ?_⟩
  · rwa [hsheets, notices_sheets _ o _ _ r.toJson (Sarif.ofReport r setting.job).toJson]
  · have hsummary (hshown : setting.console.Takes r.summaryLines) :
        setting.console.Takes r.narrowed.summaryLines := by
      intro text htext
      rcases Report.summaryLines_narrowed htext with h | h
      · exact hshown text h
      · exact setting.console.takes_ascii text h
    unfold shown at hshown ⊢
    dsimp only
    cases hformat : o.format with
    | text | blank =>
      simp only [hformat] at hshown
      exact hsummary hshown
    | json | sarif => exact Console.takes_render _

end Command

end LeakScan
