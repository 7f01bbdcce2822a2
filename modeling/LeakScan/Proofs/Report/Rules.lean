import LeakScan.Report.Sarif
import Mathlib.Data.List.Induction
import Mathlib.Data.List.Nodup

namespace LeakScan

namespace Json

inductive Step where
  | member (name : String)
  | item (i : Nat)

def part? : Json → List Step → Option Json
  | j, [] => some j
  | obj members, .member name :: path => (member? name members).bind fun j => j.part? path
  | arr items, .item i :: path => items[i]?.bind fun j => j.part? path
  | _, _ => none

end Json

namespace Sarif

variable {names more : List String} {a b : String} {f : Finding}

/-- Of two names the first is used before the other is. -/
def UsedBefore (names : List String) (a b : String) : Prop := names.idxOf a < names.idxOf b

theorem usedBefore_of_notMem (ha : a ∈ names) (hb : b ∉ names) :
    UsedBefore (names ++ more) a b := by
  rw [UsedBefore, List.idxOf_append_of_mem ha, List.idxOf_append_of_notMem hb]
  have := List.idxOf_lt_length_iff.2 ha
  omega

theorem UsedBefore.append (h : UsedBefore names a b) : UsedBefore (names ++ more) a b := by
  have ha : a ∈ names := List.idxOf_lt_length_iff.1 (Nat.lt_of_lt_of_le h List.idxOf_le_length)
  by_cases hb : b ∈ names
  · rw [UsedBefore, List.idxOf_append_of_mem ha, List.idxOf_append_of_mem hb]
    exact h
  · exact usedBefore_of_notMem ha hb

/-- There is one rule for each name that has been used, in the order of first uses. -/
structure Lists (ids used : List String) : Prop where
  sorted : ids.Pairwise (UsedBefore used)
  mem_iff : ∀ id, id ∈ ids ↔ id ∈ used

theorem Lists.nodup {ids used : List String} (h : Lists ids used) : ids.Nodup := by
  refine h.sorted.imp ?_
  rintro a _ hlt rfl
  exact Nat.lt_irrefl _ hlt

theorem Lists.used_again {ids used : List String} (h : Lists ids used) (ha : a ∈ ids) :
    Lists ids (used ++ [a]) := by
  refine ⟨h.sorted.imp UsedBefore.append, fun id => ?_⟩
  rw [List.mem_append, List.mem_singleton, ← h.mem_iff]
  exact ⟨Or.inl, fun hid => hid.elim (fun hid => hid) fun heq => heq ▸ ha⟩

theorem Lists.used_first {ids used : List String} (h : Lists ids used) (ha : a ∉ ids) :
    Lists (ids ++ [a]) (used ++ [a]) := by
  refine ⟨List.pairwise_append.2 ⟨h.sorted.imp UsedBefore.append, List.pairwise_singleton _ _,
    fun id hid b hb => ?_⟩, fun id => by simp [h.mem_iff]⟩
  rw [List.mem_singleton.1 hb]
  exact usedBefore_of_notMem ((h.mem_iff id).1 hid) (mt (h.mem_iff a).2 ha)

/-- The rules list the names that have been used, and a name has the number of its rule. -/
structure RuleTable.Keeps (t : RuleTable) (used : List String) : Prop
    extends Lists (t.rules.map (·.id)) used where
  number?_eq_some : ∀ id k, t.number? id = some k ↔ (t.rules.map (·.id))[k]? = some id

namespace RuleTable.Keeps

variable {t : RuleTable} {used : List String} (h : t.Keeps used)

include h

theorem mem_of_number? {k : Nat} (ha : t.number? a = some k) : a ∈ t.rules.map (·.id) :=
  List.mem_of_getElem? ((h.number?_eq_some a k).1 ha)

theorem notMem_of_number? (ha : t.number? a = none) : a ∉ t.rules.map (·.id) := by
  intro hmem
  obtain ⟨k, hk⟩ := List.mem_iff_getElem?.1 hmem
  rw [(h.number?_eq_some a k).2 hk] at ha
  cases ha

theorem add (f : Finding) : (t.add f).Keeps (used ++ [f.ruleId]) := by
  cases hnumber : t.number? f.ruleId with
  | some k =>
    have hold : t.add f = t := by rw [RuleTable.add, hnumber, Option.isSome_some, if_pos rfl]
    rw [hold]
    exact ⟨h.used_again (h.mem_of_number? hnumber), h.number?_eq_some⟩
  | none =>
    have hnew : t.add f = ⟨t.rules ++ [f.rule], (f.ruleId, t.rules.length) :: t.numbers⟩ := by
      rw [RuleTable.add, hnumber, Option.isSome_none, if_neg Bool.false_ne_true]
    have hids : (t.add f).rules.map (·.id) = t.rules.map (·.id) ++ [f.ruleId] := by
      rw [hnew, List.map_append]
      rfl
    have hfresh := h.notMem_of_number? hnumber
    refine ⟨?_, fun id k => ?_⟩
    · rw [hids]
      exact h.used_first hfresh
    · -- The new number is the length of the list, which no earlier number reaches.
      rw [number?_add_new hnumber, hids, List.getElem?_append, List.length_map]
      split
      · next hid =>
        rw [hid, Option.some.injEq]
        split
        · next hk => exact iff_of_false (by omega) fun hget => hfresh (List.mem_of_getElem? hget)
        · next hk => rw [List.getElem?_singleton]; simp; omega
      · next hid =>
        rw [h.number?_eq_some]
        split
        · rfl
        · next hk =>
          rw [List.getElem?_eq_none (by simpa using hk), List.getElem?_singleton]
          split <;> simp [Ne.symm hid]

end RuleTable.Keeps

theorem ruleTable_concat (fs : List Finding) (f : Finding) :
    ruleTable (fs ++ [f]) = (ruleTable fs).add f := by
  rw [ruleTable, ruleTable, List.foldl_append]
  rfl

theorem keeps_ruleTable (fs : List Finding) : (ruleTable fs).Keeps (fs.map Finding.ruleId) := by
  induction fs using List.reverseRecOn with
  | nil =>
    exact ⟨⟨List.Pairwise.nil, fun _ => Iff.rfl⟩, fun id k => ⟨nofun, nofun⟩⟩
  | append_singleton fs f ih =>
    rw [ruleTable_concat, List.map_append]
    exact ih.add f

def rulesPath : List Json.Step :=
  [.member "runs", .item 0, .member "tool", .member "driver", .member "rules"]

def resultsPath : List Json.Step := [.member "runs", .item 0, .member "results"]

def regionPath : List Json.Step :=
  [.member "locations", .item 0, .member "physicalLocation", .member "region"]

/-- The result tells of a finding: its number leads to the finding's name, and it has a region just
when the finding has a line. -/
structure TellsOf (ids : List String) (f : Finding) (result : Json) : Prop where
  ruleId : result.part? [.member "ruleId"] = some (.str f.ruleId)
  ruleIndex : ∃ k, result.part? [.member "ruleIndex"] = some (.ofNat k) ∧ ids[k]? = some f.ruleId
  region : (result.part? regionPath).isSome ↔ f.line.isSome
  startLine : ∀ n, f.line = some n → ∃ start,
    result.part? (regionPath ++ [.member "startLine"]) = some (.int start) ∧ 1 ≤ start ∧
      (0 < n → start = n)

theorem rules_toJson (l : Log) :
    l.toJson.part? rulesPath = some (.arr (l.rules.map (·.toJson))) := rfl

theorem results_toJson (l : Log) :
    l.toJson.part? resultsPath = some (.arr (l.results.map (·.toJson))) := rfl

theorem ruleIndex_resultOf (f : Finding) (k : Nat) :
    (resultOf f k).toJson.part? [.member "ruleIndex"] = some (.ofNat k) := rfl

theorem resultOf_tellsOf {ids : List String} {k : Nat} (hk : ids[k]? = some f.ruleId) :
    TellsOf ids f (resultOf f k).toJson where
  ruleId := rfl
  ruleIndex := ⟨k, rfl, hk⟩
  region := by
    cases hline : f.line with
    | none => simp [resultOf, hline, Result.toJson, regionPath, Json.part?, Json.member?]
    | some n => simp [resultOf, hline, Result.toJson, regionPath, Json.part?, Json.member?]
  startLine n hline := by
    refine ⟨max 1 n, ?_, Int.le_max_left 1 n, fun hn => Int.max_eq_right hn⟩
    simp [resultOf, hline, Result.toJson, regionPath, Json.part?, Json.member?]

def resultIn (r : Report) (f : Finding) : Json :=
  (resultOf f (((ruleTable r.findings).number? f.ruleId).getD 0)).toJson

theorem exists_number? {r : Report} (hf : f ∈ r.findings) :
    ∃ k, (ruleTable r.findings).number? f.ruleId = some k ∧
      resultIn r f = (resultOf f k).toJson := by
  obtain ⟨k, hk⟩ := Option.isSome_iff_exists.1 (isSome_number?_ruleTable hf)
  exact ⟨k, hk, by rw [resultIn, hk, Option.getD_some]⟩

theorem results_ofReport (r : Report) (job : Job) :
    (ofReport r job).toJson.part? resultsPath = some (.arr (r.findings.map (resultIn r))) := by
  have hnumbered : ∀ f ∈ r.findings, ((ruleTable r.findings).number? f.ruleId).isSome :=
    fun _ => isSome_number?_ruleTable
  have hresults : (ofReport r job).results.map (·.toJson) = r.findings.map (resultIn r) := by
    rw [ofReport, List.map_pmap, ← List.pmap_eq_map hnumbered]
    refine List.pmap_congr_left _ fun f hf h _ => ?_
    rw [resultIn, Option.get_eq_getD]
  rw [results_toJson, hresults]

/-- A log has one rule for each name in use, in the order of first uses, and one result for each
finding, in their order, whose number leads to the rule of its name; no rule is there for nothing. -/
theorem log_refers_within (r : Report) (job : Job) :
    ∃ (rules results : List Json) (ids : List String),
      (ofReport r job).toJson.part? rulesPath = some (.arr rules) ∧
      (ofReport r job).toJson.part? resultsPath = some (.arr results) ∧
      rules.map (fun rule => rule.part? [.member "id"]) = ids.map (fun id => some (.str id)) ∧
      ids.Nodup ∧ ids.Pairwise (UsedBefore (r.findings.map Finding.ruleId)) ∧
      (∀ id, id ∈ ids ↔ id ∈ r.findings.map Finding.ruleId) ∧
      List.Forall₂ (TellsOf ids) r.findings results ∧ results.length = r.totalIssues ∧
      ∀ k < rules.length, ∃ result ∈ results,
        result.part? [.member "ruleIndex"] = some (.ofNat k) := by
  have hkeeps := keeps_ruleTable r.findings
  have htells (f : Finding) (hf : f ∈ r.findings) :
      TellsOf ((ruleTable r.findings).rules.map (·.id)) f (resultIn r f) := by
    obtain ⟨k, hk, hresult⟩ := exists_number? hf
    rw [hresult]
    exact resultOf_tellsOf ((hkeeps.number?_eq_some _ k).1 hk)
  refine ⟨_, _, (ruleTable r.findings).rules.map (·.id), rules_toJson _, results_ofReport r job, ?_,
    hkeeps.nodup, hkeeps.sorted, hkeeps.mem_iff, ?_, ?_, fun k hk => ?_⟩
  · rw [List.map_map, List.map_map]
    rfl
  · simp only [List.forall₂_map_right_iff, List.forall₂_same]
    exact htells
  · rw [List.length_map, Report.length_findings]
  · have hids : k < ((ruleTable r.findings).rules.map (·.id)).length := by
      simpa [ofReport] using hk
    obtain ⟨f, hf, hid⟩ := List.mem_map.1 ((hkeeps.mem_iff _).1 (List.getElem_mem hids))
    obtain ⟨k', hk', hresult⟩ := exists_number? hf
    refine ⟨resultIn r f, List.mem_map_of_mem hf, ?_⟩
    rw [hresult, ruleIndex_resultOf]
    rw [(hkeeps.number?_eq_some f.ruleId k).2 (by rw [hid, List.getElem?_eq_getElem])] at hk'
    rw [Option.some.inj hk']

def namesake : Report where
  target := .directory "/"
  filesScanned := 2
  startedAt := .ofEpochMicros 0
  completedAt := .ofEpochMicros 0
  keys := [⟨"a", "Sensitive File", some 0, "", ""⟩]
  sensitiveFiles := [{ file := ".env", issue := "", recommendation := "" }]
  codeIssues := [⟨"b", some 7, "Debug Mode", "", ""⟩]
  errors := []

theorem log_refers_within_namesake :
    ∃ results, (ofReport namesake {}).toJson.part? resultsPath = some (.arr results) ∧
      results.length = 3 ∧
      ∃ result ∈ results, result.part? [.member "ruleIndex"] = some (.ofNat 1) := by
  obtain ⟨rules, results, ids, hrules, hresults, -, -, -, -, -, hlength, hused⟩ :=
    log_refers_within namesake {}
  obtain rfl := Json.arr.inj (Option.some.inj (hrules.symm.trans (rules_toJson _)))
  exact ⟨results, hresults, hlength, hused 1 (by decide)⟩

end Sarif

end LeakScan
