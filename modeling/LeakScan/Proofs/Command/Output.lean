import LeakScan.Proofs.Command.ExitCode
import LeakScan.Proofs.Disk.Writing
import LeakScan.Proofs.Report.Printed

namespace LeakScan

namespace Disk

/-- A path leads to a file with a text, or to what is no file and keeps nothing. -/
def Received (d : Disk) (path text : String) : Prop :=
  ∃ f n, d.locate path = .ok (.node f n) ∧
    (n.isFile = true → ∃ access, n = .file (Text.encodeUtf8 text.toList) access)

def Meet (d : Disk) (path path' : String) : Prop :=
  ∃ q n, d.locate path = .ok (.node q n) ∧ d.locate path' = .ok (.node q n)

variable {d : Disk} {path path' : String} {q : Location} {n m : Node}

theorem meet_of_place (h : d.locate path = .ok (.node q n))
    (h' : d.locate path' = .ok (.node q m)) : d.Meet path path' := by
  have hat := at?_of_locateFrom (locate_ok h).2
  rw [at?_of_locateFrom (locate_ok h').2] at hat
  exact ⟨q, n, h, Option.some.inj hat ▸ h'⟩

end Disk

namespace Command

variable {disk after : Disk} {setting : Setting} {s : Subject} {o : ScanOptions} {config : Config}
  {r : Report} {words : List String} {path : String} {q : Location} {n : Node} {l : List Sheet}

namespace Written

theorem split {l' : List Sheet} (h : Written disk (l ++ l') after) :
    ∃ next, Written disk l next ∧ Written next l' after := by
  induction l generalizing disk with
  | nil => exact ⟨disk, .nil disk, h⟩
  | cons sheet rest ih =>
    cases h with
    | cons hwrite hrest =>
      obtain ⟨next, hnext, hafter⟩ := ih hrest
      exact ⟨next, .cons hwrite hnext, hafter⟩

theorem located (h : Written disk l after) (hn : disk.locate path = .ok (.node q n)) :
    ∃ m, after.locate path = .ok (.node q m) ∧ n.SameKind m := by
  induction h generalizing n with
  | nil disk => exact ⟨n, hn, .refl n⟩
  | cons hwrite _ ih =>
    obtain ⟨m, hm, hkind⟩ := Disk.located_of_writeAt hwrite hn
    obtain ⟨k, hk, hkind'⟩ := ih hm
    exact ⟨k, hk, hkind.trans hkind'⟩

theorem keeps (h : Written disk l after) {bytes : List UInt8} {w : Access}
    (hfile : disk.locate path = .ok (.node q (.file bytes w)))
    (hapart : ∀ sheet ∈ l, ¬ after.Meet path (Path.normal sheet.file)) :
    after.locate path = .ok (.node q (.file bytes w)) := by
  induction h with
  | nil disk => exact hfile
  | @cons disk next after sheet rest hwrite hrest ih =>
    refine ih ?_ fun sheet hsheet => hapart sheet (List.mem_cons_of_mem _ hsheet)
    rcases Disk.writes_of_writeAt hwrite with ⟨rfl, -⟩ | ⟨f, access, hwrites, hsheet⟩
    · exact hfile
    · by_cases hq : q = f
      · -- Then both paths lead to this place to the end.
        subst hq
        obtain ⟨m, hm, -⟩ := Disk.located_of_writeAt hwrite hfile
        obtain ⟨m, hm, -⟩ := hrest.located hm
        obtain ⟨k, hk, -⟩ := hrest.located hsheet
        exact absurd (Disk.meet_of_place hm hk) (hapart sheet List.mem_cons_self)
      · obtain ⟨m, hm, hkept⟩ := hwrites.locate hfile hq
        rcases hkept with rfl | ⟨_, _, _, hdirectory, -⟩
        · exact hm
        · cases hdirectory

theorem received {before rest : List Sheet} {sheet : Sheet}
    (h : Written disk (before ++ sheet :: rest) after)
    (hapart : ∀ other ∈ rest, ¬ after.Meet (Path.normal sheet.file) (Path.normal other.file)) :
    after.Received (Path.normal sheet.file) (Json.render sheet.content) := by
  obtain ⟨mid, -, hrest⟩ := h.split
  cases hrest with
  | cons hwrite hrest =>
    rcases Disk.writes_of_writeAt hwrite with ⟨rfl, q, n, hn, hno⟩ | ⟨f, access, -, hfile⟩
    · obtain ⟨m, hm, hkind⟩ := hrest.located hn
      refine ⟨q, m, hm, fun hfile => ?_⟩
      rw [hkind.isFile_eq, hno] at hfile
      cases hfile
    · exact ⟨f, _, hrest.keeps hfile hapart, fun _ => ⟨access, rfl⟩⟩

end Written

section Sheets

variable {file : String} (hne : file ≠ "") (report sarif : Json)

include hne

theorem sheets_of_jsonFile (hfile : o.jsonFile = some file) :
    ∃ rest, sheets o report sarif = [] ++ ⟨file, report, "JSON"⟩ :: rest ∧
      ∀ sheet ∈ rest, o.sarifFile = some sheet.file ∧ sheet.file ≠ "" := by
  refine ⟨(o.sarifFile.toList.map (Sheet.mk · sarif "SARIF")).filter fun s => !s.file.isEmpty,
    by simp [sheets, hfile, hne], fun sheet hsheet => ?_⟩
  simp only [List.mem_filter, List.mem_map, Option.mem_toList] at hsheet
  obtain ⟨⟨other, hother, rfl⟩, hsome⟩ := hsheet
  exact ⟨hother, by simpa using hsome⟩

theorem sheets_of_sarifFile (hfile : o.sarifFile = some file) :
    ∃ before, sheets o report sarif = before ++ [⟨file, sarif, "SARIF"⟩] :=
  ⟨(o.jsonFile.toList.map (Sheet.mk · report "JSON")).filter fun s => !s.file.isEmpty,
    by simp [sheets, hfile, hne]⟩

end Sheets

end Command

/-- The texts of both JSON forms of a report are ASCII and are read back as these forms, for every
report. A run that makes a report and can write its files prints the text of the form that is asked
for, and a line feed; JSON is always taken. Each file that is written holds the text of its form; of
two files at one place the second counts. If standard output refuses a summary, the files that come
first are written nevertheless. -/
theorem json_output_lossless :
    (∀ (r : Report) (job : Sarif.Job),
      Json.Lossless r.toJson ∧ Json.Lossless (Sarif.ofReport r job).toJson) ∧
    ∀ (disk after : Disk) (setting : Command.Setting) (words : List String) (s : Command.Subject)
        (o : Command.ScanOptions) (config : Config) (r : Report),
      Command.Order.read words = s.order o →
      Command.Succeeds disk setting s o config r after →
      (o.format = .json →
        (Command.run disk setting words).output = Json.render r.toJson ++ "\n") ∧
      (o.format = .sarif → (Command.run disk setting words).output =
        Json.render (Sarif.ofReport r setting.job).toJson ++ "\n") ∧
      (o.format = .json ∨ o.format = .sarif → Command.Prints setting o r) ∧
      (Command.Prints setting o r → (Command.run disk setting words).disk = after) ∧
      (∃ written,
        written <+: Command.sheets o r.toJson (Sarif.ofReport r setting.job).toJson ∧
        Command.Written disk written (Command.run disk setting words).disk) ∧
      (∀ file, o.jsonFile = some file → file ≠ "" →
        (∀ other, o.sarifFile = some other → other ≠ "" →
          ¬ after.Meet (Path.normal file) (Path.normal other)) →
        after.Received (Path.normal file) (Json.render r.toJson)) ∧
      ∀ file, o.sarifFile = some file → file ≠ "" →
        after.Received (Path.normal file) (Json.render (Sarif.ofReport r setting.job).toJson) := by
  refine ⟨fun r job => ⟨r.lossless, (Sarif.ofReport r job).lossless⟩,
    fun disk after setting words s o config r hread h => ⟨fun hformat => ?_, fun hformat => ?_,
      fun hformat => hformat.elim Command.prints_json Command.prints_sarif, h.disk_eq hread,
      h.disk_run hread, fun file hfile hne hapart => ?_, fun file hfile hne => ?_⟩⟩
  · rw [h.output hread (Command.prints_json hformat), Command.printed_json hformat]
    simp [Command.joinLines]
  · rw [h.output hread (Command.prints_sarif hformat), Command.printed_sarif hformat]
    simp [Command.joinLines]
  · obtain ⟨rest, hsheets, hrest⟩ := Command.sheets_of_jsonFile hne r.toJson
      (Sarif.ofReport r setting.job).toJson hfile
    have hwritten := h.written
    rw [hsheets] at hwritten
    refine hwritten.received fun other hother => ?_
    obtain ⟨hsome, hne'⟩ := hrest other hother
    exact hapart other.file hsome hne'
  · obtain ⟨before, hsheets⟩ := Command.sheets_of_sarifFile hne r.toJson
      (Sarif.ofReport r setting.job).toJson hfile
    have hwritten := h.written
    rw [hsheets] at hwritten
    exact hwritten.received (List.forall_mem_nil _)

def sheetDisk : Disk :=
  ⟨.directory [("w", .directory [("old.sarif", .file [] .full)] .full), ("l", .link "w/old.sarif")]
    .full, ["w"]⟩

theorem json_output_lossless_page :
    ∃ r after, Command.Succeeds sheetDisk sampleSetting (.page "http://a")
        { format := .json, jsonFile := some "r.json", sarifFile := some "/l" } .default r after ∧
      (Command.run sheetDisk sampleSetting ["scan-url", "http://a", "--format", "json",
        "--json-out", "r.json", "--sarif-out", "/l"]).output = Json.render r.toJson ++ "\n" ∧
      after.Received "r.json" (Json.render r.toJson) ∧
      after.Received "/l" (Json.render (Sarif.ofReport r sampleSetting.job).toJson) := by
  obtain ⟨r, hr⟩ : ∃ r, ((Command.Subject.page "http://a").scan sheetDisk .default
      sampleSetting).result = .ok r := ⟨_, rfl⟩
  let both (b c : List UInt8) : Disk :=
    (sheetDisk.withBytes ["w", "r.json"] b .full).withBytes ["w", "old.sarif"] c .full
  have hfirst (b : List UInt8) : sheetDisk.writeAt (Path.normal "r.json") b =
      .ok (sheetDisk.withBytes ["w", "r.json"] b .full) := rfl
  have hsecond (b c : List UInt8) :
      (sheetDisk.withBytes ["w", "r.json"] b .full).writeAt (Path.normal "/l") c =
        .ok (both b c) := rfl
  have hapart (b c : List UInt8) : ¬ (both b c).Meet (Path.normal "r.json") (Path.normal "/l") := by
    have hjson : (both b c).locate (Path.normal "r.json") =
        .ok (.node ["w", "r.json"] (.file b .full)) := rfl
    have hsarif : (both b c).locate (Path.normal "/l") =
        .ok (.node ["w", "old.sarif"] (.file c .full)) := rfl
    rintro ⟨q, n, hq, hq'⟩
    have hplace := (Disk.Found.node.inj (Except.ok.inj (hjson.symm.trans hq))).1
    have hplace' := (Disk.Found.node.inj (Except.ok.inj (hsarif.symm.trans hq'))).1
    exact absurd (hplace.trans hplace'.symm) (by decide)
  have hsucceeds : Command.Succeeds sheetDisk sampleSetting (.page "http://a")
      { format := .json, jsonFile := some "r.json", sarifFile := some "/l" } .default r _ :=
    ⟨rfl, hr, .cons (hfirst _) (.cons (hsecond _ _) (.nil _))⟩
  obtain ⟨-, hrun⟩ := json_output_lossless
  obtain ⟨houtput, -, -, -, -, hjson, hsarif⟩ := hrun _ _ _ ["scan-url", "http://a", "--format",
    "json", "--json-out", "r.json", "--sarif-out", "/l"] _ _ _ _ (by decide) hsucceeds
  refine ⟨r, _, hsucceeds, houtput rfl, hjson "r.json" rfl (by decide) ?_,
    hsarif "/l" rfl (by decide)⟩
  rintro other hother -
  cases hother
  exact hapart _ _

end LeakScan
