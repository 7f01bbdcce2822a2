import LeakScan.Proofs.Report.Rules

namespace LeakScan

/-- The value with another one at the end of a path, wherever the path leads to something. -/
def Json.withPart : Json → List Step → Json → Json
  | _, [], v => v
  | .obj members, .member name :: path, v =>
    .obj (members.map fun m => if m.1 = name then (m.1, m.2.withPart path v) else m)
  | .arr items, .item i :: path, v => .arr (items.modify i fun j => j.withPart path v)
  | j, _ :: _, _ => j

theorem Text.parts_of_joined {c : Char} {xs ys s t : List Char} (hx : c ∉ xs) (hy : c ∉ ys)
    (h : xs ++ c :: s = ys ++ c :: t) : xs = ys ∧ s = t := by
  obtain ⟨r, rfl, hr⟩ | ⟨r, rfl, hr⟩ := List.append_eq_append_iff.1 h
  · cases r with
    | nil => exact ⟨(List.append_nil xs).symm, (List.cons.inj hr).2⟩
    | cons d r => simp [(List.cons.inj hr).1] at hy
  · cases r with
    | nil => exact ⟨List.append_nil ys, (List.cons.inj hr).2.symm⟩
    | cons d r => simp [(List.cons.inj hr).1] at hx

namespace Sarif

variable {j k : Job}

namespace Job

/-- The run and the attempt are told apart from the job by the dashes around it. -/
structure Dashless (j : Job) : Prop where
  run : '-' ∉ j.runName.toList
  attempt : '-' ∉ j.attemptName.toList

theorem toList_id (j : Job) : j.id.toList = "keyhunter-".toList ++
    (j.runName.toList ++ '-' :: (j.jobName.toList ++ '-' :: j.attemptName.toList)) := by
  simp [id]

theorem id_eq_iff (hj : j.Dashless) (hk : k.Dashless) : j.id = k.id ↔
    j.runName = k.runName ∧ j.jobName = k.jobName ∧ j.attemptName = k.attemptName := by
  constructor
  · intro h
    have hids := congrArg String.toList h
    rw [toList_id, toList_id, List.append_cancel_left_eq] at hids
    obtain ⟨hrun, hrest⟩ := Text.parts_of_joined hj.run hk.run hids
    -- The job may hold dashes, the attempt does not: its dash is found from the end.
    have hback := congrArg List.reverse hrest
    simp only [List.reverse_append, List.reverse_cons, List.append_assoc, List.singleton_append]
      at hback
    obtain ⟨hattempt, hjob⟩ := Text.parts_of_joined
      (mt List.mem_reverse.1 hj.attempt) (mt List.mem_reverse.1 hk.attempt) hback
    exact ⟨String.toList_inj.1 hrun, String.toList_inj.1 (List.reverse_inj.1 hjob),
      String.toList_inj.1 (List.reverse_inj.1 hattempt)⟩
  · rintro ⟨hrun, hjob, hattempt⟩
    rw [id, id, hrun, hjob, hattempt]

end Job

def jobPath : List Json.Step :=
  [.member "runs", .item 0, .member "automationDetails", .member "id"]

theorem job_toJson (l : Log) : l.toJson.part? jobPath = some (.str l.jobId) := rfl

theorem toJson_withPart (l : Log) (id : String) :
    l.toJson.withPart jobPath (.str id) = { l with jobId := id }.toJson := rfl

/-- Logs of jobs without dashes around the job's name are named alike just when run, job and attempt
are the same, and the logs of one report are the same but for their names, whatever the jobs. -/
theorem uploads_apart (j k : Job) :
    (j.Dashless → k.Dashless → ∀ r s : Report,
      (ofReport r j).toJson.part? jobPath = (ofReport s k).toJson.part? jobPath ↔
        j.runName = k.runName ∧ j.jobName = k.jobName ∧ j.attemptName = k.attemptName) ∧
    ∀ r : Report, (ofReport r k).toJson = (ofReport r j).toJson.withPart jobPath (.str k.id) := by
  constructor
  · intro hj hk r s
    rw [job_toJson, job_toJson, ← Job.id_eq_iff hj hk]
    simp [ofReport]
  · intro r
    rw [toJson_withPart]
    rfl

def numberedJob : Job := { run := some "7", job := some "lint-1" }

def plainJob : Job := { run := some "7", job := some "lint", attempt := some "1" }

theorem uploads_apart_numbered : numberedJob.Dashless ∧ plainJob.Dashless ∧
    numberedJob.id = "keyhunter-7-lint-1-1" ∧ plainJob.id = "keyhunter-7-lint-1" ∧
    ∀ r s : Report, (ofReport r numberedJob).toJson.part? jobPath ≠
      (ofReport s plainJob).toJson.part? jobPath := by
  have hnumbered : numberedJob.Dashless := ⟨by decide, by decide⟩
  have hplain : plainJob.Dashless := ⟨by decide, by decide⟩
  refine ⟨hnumbered, hplain, by decide, by decide, fun r s h => ?_⟩
  have hjob := (((uploads_apart numberedJob plainJob).1 hnumbered hplain r s).1 h).2.1
  exact absurd hjob (by decide)

end Sarif

end LeakScan
