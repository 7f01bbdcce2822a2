import LeakScan.Proofs.Report.Tally
import LeakScan.Report.Encode
import Mathlib.Data.List.Infix

namespace LeakScan

namespace Entry

def finding? : Entry → Option Finding
  | finding f => some f
  | foreign _ => none

def foreign? : Entry → Option String
  | finding _ => none
  | foreign kind => some kind

end Entry

namespace Tally

inductive Operation where
  | add (d : Document) (entries : List Entry)
  | fail (file error : String)
  | draw (completedAt : Moment)
deriving DecidableEq, Repr

inductive Answer where
  | done
  /-- An entry of this kind was no finding. -/
  | refused (kind : String)
  | drawn (r : Report)
deriving DecidableEq, Repr

def operate (t : Tally) : Operation → Tally × Answer
  | .add d entries => ((t.add d entries).1, (t.add d entries).2.elim .done .refused)
  | .fail file error => (t.addError file error, .done)
  | .draw completedAt => (t, .drawn (t.report completedAt))

/-- The tally after a run of operations, and their answers. -/
def run (t : Tally) : List Operation → Tally × List Answer
  | [] => (t, [])
  | op :: ops => (((t.operate op).1.run ops).1, (t.operate op).2 :: ((t.operate op).1.run ops).2)

namespace Operation

def isAdd : Operation → Bool
  | add _ _ => true
  | _ => false

def isDraw : Operation → Bool
  | draw _ => true
  | _ => false

/-- The findings that an operation brings: those before the first entry that is none. -/
def findings : Operation → List Finding
  | add _ entries => (entries.takeWhile fun e => e.finding?.isSome).filterMap Entry.finding?
  | _ => []

def failures : Operation → List ReadFailure
  | add d _ => (d.readError.map fun e => ⟨d.path, e⟩).toList
  | fail file error => [⟨file, error⟩]
  | draw _ => []

def refusal? : Operation → Option String
  | add _ entries => entries.findSome? Entry.foreign?
  | _ => none

def answer (t : Tally) : Operation → Answer
  | draw completedAt => .drawn (t.report completedAt)
  | op => op.refusal?.elim .done .refused

end Operation

variable {t : Tally}

theorem addEntries_eq (entries : List Entry) :
    t.addEntries entries =
      (((entries.takeWhile fun e => e.finding?.isSome).filterMap Entry.finding?).foldl addFinding t,
        entries.findSome? Entry.foreign?) := by
  induction entries generalizing t with
  | nil => rfl
  | cons e entries ih =>
    cases e with
    | finding f => simp [addEntries, ih, Entry.finding?, Entry.foreign?, List.findSome?_cons]
    | foreign kind => simp [addEntries, Entry.finding?, Entry.foreign?, List.findSome?_cons]

theorem operate_tally (op : Operation) :
    (t.operate op).1 =
      { t with
        filesScanned := t.filesScanned + op.isAdd.toNat
        keys := t.keys ++ op.findings.filterMap Finding.key?
        sensitiveFiles := t.sensitiveFiles ++ op.findings.filterMap Finding.sensitive?
        codeIssues := t.codeIssues ++ op.findings.filterMap Finding.code?
        errors := t.errors ++ op.failures } := by
  cases op with
  | add d entries =>
    rw [operate, add, addEntries_eq, foldl_addFinding, count_eq]
    simp [Operation.isAdd, Operation.findings, Operation.failures]
  | fail file error =>
    simp [operate, addError, Operation.isAdd, Operation.findings, Operation.failures]
  | draw completedAt => simp [operate, Operation.isAdd, Operation.findings, Operation.failures]

theorem operate_answer (op : Operation) : (t.operate op).2 = op.answer t := by
  cases op with
  | add d entries => simp only [operate, add, addEntries_eq, Operation.answer, Operation.refusal?]
  | fail file error => rfl
  | draw completedAt => rfl

theorem run_tally (ops : List Operation) :
    (t.run ops).1 =
      { t with
        filesScanned := t.filesScanned + ops.countP Operation.isAdd
        keys := t.keys ++ (ops.flatMap Operation.findings).filterMap Finding.key?
        sensitiveFiles :=
          t.sensitiveFiles ++ (ops.flatMap Operation.findings).filterMap Finding.sensitive?
        codeIssues := t.codeIssues ++ (ops.flatMap Operation.findings).filterMap Finding.code?
        errors := t.errors ++ ops.flatMap Operation.failures } := by
  induction ops generalizing t with
  | nil => simp [run]
  | cons op ops ih =>
    rw [run, ih, operate_tally]
    cases hop : op.isAdd <;> simp [hop, Nat.add_assoc, Nat.add_comm 1]

theorem run_append (ops later : List Operation) :
    t.run (ops ++ later) =
      (((t.run ops).1.run later).1, (t.run ops).2 ++ ((t.run ops).1.run later).2) := by
  induction ops generalizing t with
  | nil => rfl
  | cons op ops ih => simp [run, ih]

structure Extends (earlier later : Report) : Prop where
  target : later.target = earlier.target
  startedAt : later.startedAt = earlier.startedAt
  filesScanned : earlier.filesScanned ≤ later.filesScanned
  keys : earlier.keys <+: later.keys
  sensitiveFiles : earlier.sensitiveFiles <+: later.sensitiveFiles
  codeIssues : earlier.codeIssues <+: later.codeIssues
  errors : earlier.errors <+: later.errors

theorem Extends.totalIssues_le {earlier later : Report} (h : Extends earlier later) :
    earlier.totalIssues ≤ later.totalIssues := by
  have hkeys := h.keys.length_le
  have hfiles := h.sensitiveFiles.length_le
  have hcodes := h.codeIssues.length_le
  unfold Report.totalIssues
  omega

theorem extends_run (ops : List Operation) (m m' : Moment) :
    Extends (t.report m) ((t.run ops).1.report m') := by
  rw [run_tally]
  exact ⟨rfl, rfl, Nat.le_add_right _ _, List.prefix_append _ _, List.prefix_append _ _,
    List.prefix_append _ _, List.prefix_append _ _⟩

theorem answers_run (ops : List Operation) (i : Nat) :
    (t.run ops).2[i]? = ops[i]?.map fun op => op.answer (t.run (ops.take i)).1 := by
  induction ops generalizing t i with
  | nil => simp [run]
  | cons op ops ih =>
    cases i with
    | zero => simp [run, operate_answer]
    | succ i => simp [run, ih]

theorem drawn_in_run {ops : List Operation} {i : Nat} {r : Report}
    (h : (t.run ops).2[i]? = some (.drawn r)) :
    ∃ m, ops[i]? = some (.draw m) ∧ r = (t.run (ops.take i)).1.report m := by
  rw [answers_run] at h
  obtain ⟨op, hop, hanswer⟩ := Option.map_eq_some_iff.1 h
  cases op with
  | draw m => exact ⟨m, hop, (Answer.drawn.inj hanswer).symm⟩
  | add d entries =>
    rw [Operation.answer] at hanswer
    · cases hrefusal : (Operation.add d entries).refusal? <;> simp [hrefusal] at hanswer
    · simp
  | fail file error => simp [Operation.answer, Operation.refusal?] at hanswer

theorem extends_of_drawn {ops : List Operation} {i j : Nat} {r r' : Report} (hij : i ≤ j)
    (hr : (t.run ops).2[i]? = some (.drawn r)) (hr' : (t.run ops).2[j]? = some (.drawn r')) :
    Extends r r' := by
  obtain ⟨m, -, rfl⟩ := drawn_in_run hr
  obtain ⟨m', -, rfl⟩ := drawn_in_run hr'
  -- The run up to the later report goes on from the run up to the earlier one.
  have hsplit : ops.take j = ops.take i ++ (ops.take j).drop i := by
    conv => lhs; rw [← List.take_append_drop i (ops.take j)]
    rw [List.take_take, Nat.min_eq_left hij]
  rw [hsplit, run_append]
  exact extends_run _ m m'

theorem run_without_draws (ops : List Operation) :
    (t.run (ops.filter fun op => !op.isDraw)).1 = (t.run ops).1 := by
  induction ops generalizing t with
  | nil => rfl
  | cons op ops ih =>
    cases op with
    | add d entries => exact ih
    | fail file error => exact ih
    | draw completedAt => exact ih

end Tally

namespace Report

variable (r : Report)

theorem keys_findings : r.findings.filterMap Finding.key? = r.keys := by
  simp [findings, List.filterMap_map, Function.comp_def, Finding.key?]

theorem sensitiveFiles_findings : r.findings.filterMap Finding.sensitive? = r.sensitiveFiles := by
  simp [findings, List.filterMap_map, Function.comp_def, Finding.sensitive?]

theorem codeIssues_findings : r.findings.filterMap Finding.code? = r.codeIssues := by
  simp [findings, List.filterMap_map, Function.comp_def, Finding.code?]

theorem riskJson_eq :
    r.riskJson =
      .obj [("level", .str (Risk.ofCount r.findings.length).text),
        ("total_issues", .ofNat r.findings.length),
        ("breakdown", .obj [("api_keys", .ofNat (r.findings.filterMap Finding.key?).length),
          ("sensitive_files", .ofNat (r.findings.filterMap Finding.sensitive?).length),
          ("code_issues", .ofNat (r.findings.filterMap Finding.code?).length)])] := by
  rw [keys_findings, sensitiveFiles_findings, codeIssues_findings, length_findings]
  rfl

end Report

namespace Tally

def opened (target : Target) (startedAt : Moment) : Tally :=
  { target := target, startedAt := startedAt }

/-- What a tally holds after any run is told by the operations, in their order; an operation that is
refused has brought what came before the entry at fault. An answer depends on nothing that comes
after it, reports leave no mark, and each extends those before it. -/
theorem run_told_by_operations (target : Target) (startedAt : Moment) (ops : List Operation) :
    let t := opened target startedAt
    (t.run ops).1 =
      { target := target
        startedAt := startedAt
        filesScanned := ops.countP Operation.isAdd
        keys := (ops.flatMap Operation.findings).filterMap Finding.key?
        sensitiveFiles := (ops.flatMap Operation.findings).filterMap Finding.sensitive?
        codeIssues := (ops.flatMap Operation.findings).filterMap Finding.code?
        errors := ops.flatMap Operation.failures } ∧
    (t.run (ops.filter fun op => !op.isDraw)).1 = (t.run ops).1 ∧
    (∀ i : Nat, (t.run ops).2[i]? = ops[i]?.map fun op => op.answer (t.run (ops.take i)).1) ∧
    (∀ later, (t.run ops).2 <+: (t.run (ops ++ later)).2) ∧
    (∀ (i j : Nat) r r', i ≤ j → (t.run ops).2[i]? = some (.drawn r) →
      (t.run ops).2[j]? = some (.drawn r') →
        Extends r r' ∧ r.totalIssues ≤ r'.totalIssues ∧ r.risk.rank ≤ r'.risk.rank) ∧
    ∀ r : Report, r.findings.length = r.totalIssues ∧
      r.riskJson =
        .obj [("level", .str (Risk.ofCount r.findings.length).text),
          ("total_issues", .ofNat r.findings.length),
          ("breakdown", .obj [("api_keys", .ofNat (r.findings.filterMap Finding.key?).length),
            ("sensitive_files", .ofNat (r.findings.filterMap Finding.sensitive?).length),
            ("code_issues", .ofNat (r.findings.filterMap Finding.code?).length)])] := by
  intro t
  refine ⟨?_, run_without_draws ops, answers_run ops, fun later => ?_, fun i j r r' hij hr hr' => ?_,
    fun r => ⟨r.length_findings, r.riskJson_eq⟩⟩
  · simp [run_tally, t, opened]
  · rw [run_append]
    exact List.prefix_append _ _
  · have hextends := extends_of_drawn hij hr hr'
    exact ⟨hextends, hextends.totalIssues_le, Risk.rank_ofCount_le hextends.totalIssues_le⟩

/-- A report between two documents, the second of which comes with an entry that is no finding and
with one after it. -/
def sampleRun : List Operation :=
  [.add { path := "a", text := some "" }
      [.finding (.sensitive { file := "a", issue := "", recommendation := "" })],
    .draw (.ofEpochMicros 0),
    .add { path := "b", text := none, readError := some "gone" }
      [.finding (.code ⟨"b", some 1, "Debug Mode", "", ""⟩), .foreign "int",
        .finding (.code ⟨"b", some 2, "Debug Mode", "", ""⟩)],
    .draw (.ofEpochMicros 0)]

theorem run_told_by_operations_sample :
    ∃ r r', ((opened (.directory "/") (.ofEpochMicros 0)).run sampleRun).2 =
        [.done, .drawn r, .refused "int", .drawn r'] ∧
      r'.filesScanned = 2 ∧ r'.errors = [⟨"b", "gone"⟩] ∧ r'.codeIssues.length = 1 ∧
      Extends r r' ∧ r.totalIssues ≤ r'.totalIssues ∧ r.risk.rank ≤ r'.risk.rank := by
  obtain ⟨-, -, -, -, hgrow, -⟩ :=
    run_told_by_operations (.directory "/") (.ofEpochMicros 0) sampleRun
  refine ⟨_, _, rfl, rfl, rfl, rfl, hgrow 1 3 _ _ (by decide) rfl rfl⟩

end Tally

end LeakScan
