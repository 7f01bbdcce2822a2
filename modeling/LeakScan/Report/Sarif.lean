import LeakScan.Report.Encode

namespace LeakScan

namespace Sarif

inductive Level where
  | error
  | warning
deriving DecidableEq, Repr

def Level.text : Level → String
  | error => "error"
  | warning => "warning"

structure Rule where
  id : String
  summary : String
  help : String
  level : Level
deriving DecidableEq, Repr

structure Result where
  ruleId : String
  ruleIndex : Nat
  level : Level
  message : String
  uri : String
  /-- The first line of the region, if there is one. -/
  startLine : Option Int
deriving DecidableEq, Repr

/-- What sets one upload apart from others: the run of a build, its job and its attempt. -/
structure Job where
  run : Option String := none
  job : Option String := none
  attempt : Option String := none
deriving DecidableEq, Repr

def Job.runName (j : Job) : String := j.run.getD "local"

def Job.jobName (j : Job) : String := j.job.getD "job"

def Job.attemptName (j : Job) : String := j.attempt.getD "1"

def Job.id (j : Job) : String :=
  "keyhunter-" ++ j.runName ++ "-" ++ j.jobName ++ "-" ++ j.attemptName

structure Log where
  jobId : String
  rules : List Rule
  results : List Result
  risk : Risk
  filesScanned : Nat
deriving DecidableEq, Repr

end Sarif

namespace Finding

def ruleId : Finding → String
  | key f => f.service
  | code f => f.detector
  | sensitive _ => "Sensitive File"

def level : Finding → Sarif.Level
  | key _ => .error
  | _ => .warning

def rule (f : Finding) : Sarif.Rule where
  id := f.ruleId
  summary := f.issue
  help := f.recommendation
  level := f.level

end Finding

namespace Sarif

structure RuleTable where
  rules : List Rule
  numbers : List (String × Nat)
deriving DecidableEq, Repr

namespace RuleTable

def number? (t : RuleTable) (name : String) : Option Nat := t.numbers.lookup name

def add (t : RuleTable) (f : Finding) : RuleTable :=
  if (t.number? f.ruleId).isSome then t
  else ⟨t.rules ++ [f.rule], (f.ruleId, t.rules.length) :: t.numbers⟩

end RuleTable

def ruleTable (fs : List Finding) : RuleTable := fs.foldl .add ⟨[], []⟩

variable {t : RuleTable} {fs : List Finding} {f : Finding} {name : String}

theorem RuleTable.number?_add_new (hnew : t.number? f.ruleId = none) :
    (t.add f).number? name =
      if name = f.ruleId then some t.rules.length else t.number? name := by
  rw [add, hnew, Option.isSome_none, if_neg Bool.false_ne_true, number?, List.lookup_cons, number?]
  by_cases h : name = f.ruleId
  · simp [h]
  · simp [h, beq_false_of_ne h]

theorem RuleTable.isSome_number?_add : ((t.add f).number? name).isSome ↔
    name = f.ruleId ∨ (t.number? name).isSome := by
  cases hnumber : t.number? f.ruleId with
  | some k =>
    rw [add, hnumber, Option.isSome_some, if_pos rfl, or_iff_right_of_imp]
    rintro rfl
    rw [hnumber, Option.isSome_some]
  | none =>
    rw [number?_add_new hnumber]
    split
    · next h => simp [h]
    · next h => simp [h]

theorem isSome_number?_foldl (h : (t.number? name).isSome ∨ ∃ f ∈ fs, f.ruleId = name) :
    ((fs.foldl .add t).number? name).isSome := by
  induction fs generalizing t with
  | nil => simpa using h
  | cons f fs ih =>
    refine ih ?_
    rw [RuleTable.isSome_number?_add]
    rcases h with hold | ⟨g, hg, hname⟩
    · exact .inl (.inr hold)
    · rcases List.mem_cons.1 hg with rfl | hg
      · exact .inl (.inl hname.symm)
      · exact .inr ⟨g, hg, hname⟩

theorem isSome_number?_ruleTable (hf : f ∈ fs) : ((ruleTable fs).number? f.ruleId).isSome :=
  isSome_number?_foldl (.inr ⟨f, hf, rfl⟩)

/-- The result of a finding with the number of its rule; a line before the first counts as the
first. -/
def resultOf (f : Finding) (number : Nat) : Result where
  ruleId := f.ruleId
  ruleIndex := number
  level := f.level
  message := f.issue
  uri := f.file
  startLine := f.line.map (max 1)

def ofReport (r : Report) (job : Job) : Log :=
  let table := ruleTable r.findings
  let result f h := resultOf f ((table.number? f.ruleId).get h)
  { jobId := job.id
    rules := table.rules
    results := r.findings.pmap result fun _ => isSome_number?_ruleTable
    risk := r.risk
    filesScanned := r.filesScanned }

def textJson (s : String) : Json := .obj [("text", .str s)]

def Rule.toJson (r : Rule) : Json :=
  .obj [("id", .str r.id), ("name", .str r.id), ("shortDescription", textJson r.summary),
    ("help", textJson r.help), ("defaultConfiguration", .obj [("level", .str r.level.text)])]

def Result.toJson (r : Result) : Json :=
  let region := match r.startLine with
    | some n => [("region", .obj [("startLine", .int n)])]
    | none => []
  let place := .obj (("artifactLocation", .obj [("uri", .str r.uri)]) :: region)
  .obj [("ruleId", .str r.ruleId), ("ruleIndex", .ofNat r.ruleIndex), ("level", .str r.level.text),
    ("message", textJson r.message), ("locations", .arr [.obj [("physicalLocation", place)]])]

def toolVersion : String := "1.0.0"

def Log.toJson (l : Log) : Json :=
  .obj [("version", .str "2.1.0"),
    ("$schema", .str "https://json.schemastore.org/sarif-2.1.0.json"),
    ("runs", .arr [.obj [
      ("automationDetails", .obj [("id", .str l.jobId)]),
      ("tool", .obj [("driver", .obj [("name", .str "KeyHunter"), ("version", .str toolVersion),
        ("rules", .arr (l.rules.map (·.toJson)))])]),
      ("results", .arr (l.results.map (·.toJson))),
      ("properties", .obj [("riskLevel", .str l.risk.text),
        ("totalFilesScanned", .ofNat l.filesScanned)])]])]

end Sarif

end LeakScan
