import LeakScan.Proofs.Command.Init
import LeakScan.Proofs.Disk.Writing

namespace LeakScan

namespace Command

variable {disk after : Disk} {console : Console} {root name : String} {directory : Location}
  {exit : Except Crash Nat}

/-- The settings file of a root can be created: nothing stands where its name leads to, in a directory
that can be written. -/
structure Creatable (disk : Disk) (root : String) (directory : Location) (name : String) : Prop where
  isDirectory : disk.isDirectory (Path.normal root) = .ok true
  vacant : disk.locate (targetOf root) = .ok (.vacant directory name)
  writable : disk.root.writableAt directory = true

/-- The endings of a run that writes the settings file without force. The disk is changed only where
the file can be created. -/
inductive InitEnding (disk : Disk) (console : Console) (root : String) :
    Except Crash Nat → Disk → Prop where
  | noDirectory : disk.isDirectory (Path.normal root) = .ok false →
      InitEnding disk console root (.ok 1) disk
  | present : disk.isDirectory (Path.normal root) = .ok true →
      disk.isPresent (targetOf root) = .ok true → InitEnding disk console root (.ok 1) disk
  | created {directory : Location} {name : String} : Creatable disk root directory name →
      console.refusal? ("Wrote " ++ targetOf root) = none →
      InitEnding disk console root (.ok 0)
        (disk.withBytes (directory ++ [name]) templateBytes .full)
  | unprinted {directory : Location} {name words : String} : Creatable disk root directory name →
      console.refusal? ("Wrote " ++ targetOf root) = some words →
      InitEnding disk console root (.error (.print words))
        (disk.withBytes (directory ++ [name]) templateBytes .full)
  | broken {e : PathError} : (∀ directory name, ¬ Creatable disk root directory name) →
      InitEnding disk console root (.error (.path e)) disk

theorem isPresent_of_vacant {path name : String} {directory : Location}
    (h : disk.locate path = .ok (.vacant directory name)) : disk.isPresent path = .ok false := by
  have hnode : disk.node path = .error .noEntry := by rw [Disk.node, h]
  exact Disk.holdsAt_of_absent hnode rfl

theorem runInit_of_directory {force : Bool}
    (hdirectory : disk.isDirectory (Path.normal root) = .ok true) :
    runInit disk console root force = writeTemplate disk console root force := by
  unfold runInit
  simp only [hdirectory]

theorem runInit_of_present (console : Console)
    (hdirectory : disk.isDirectory (Path.normal root) = .ok true)
    (hpresent : disk.isPresent (targetOf root) = .ok true) :
    (runInit disk console root false).exit = .ok 1 ∧
      (runInit disk console root false).disk = disk := by
  rw [runInit_of_directory hdirectory]
  unfold writeTemplate
  simp [hpresent, Outcome.ending]

theorem initEnding_of_vacant (hdirectory : disk.isDirectory (Path.normal root) = .ok true)
    (hvacant : disk.locate (targetOf root) = .ok (.vacant directory name)) :
    InitEnding disk console root (runInit disk console root false).exit
      (runInit disk console root false).disk := by
  rw [runInit_of_directory hdirectory]
  cases hwritable : disk.root.writableAt directory with
  | true =>
    have hcreatable : Creatable disk root directory name := ⟨hdirectory, hvacant, hwritable⟩
    rw [writeTemplate_of_vacant hvacant hwritable]
    cases hrefusal : console.refusal? ("Wrote " ++ targetOf root) with
    | none =>
      simp only [Outcome.say_taken hrefusal]
      exact .created hcreatable hrefusal
    | some words =>
      simp only [Outcome.say_refused hrefusal]
      exact .unprinted hcreatable hrefusal
  | false =>
    have hwrite : disk.writeAt (targetOf root) (Text.encodeUtf8 Config.template.toList) =
        .error ⟨.denied, targetOf root⟩ := by simp [Disk.writeAt, hvacant, hwritable]
    unfold writeTemplate
    simp only [isPresent_of_vacant hvacant, hwrite, Bool.false_and, Bool.false_eq_true, if_false]
    refine .broken fun directory' name' h => ?_
    cases hvacant.symm.trans h.vacant
    cases hwritable.symm.trans h.writable

theorem initEnding (disk : Disk) (console : Console) (root : String) :
    InitEnding disk console root (runInit disk console root false).exit
      (runInit disk console root false).disk := by
  cases hdirectory : disk.isDirectory (Path.normal root) with
  | error e =>
    unfold runInit
    simp only [hdirectory]
    exact .broken fun directory name h => by cases hdirectory.symm.trans h.isDirectory
  | ok isDirectory =>
    cases isDirectory with
    | false =>
      unfold runInit
      simp only [hdirectory]
      exact .noDirectory hdirectory
    | true =>
      cases hpresent : disk.isPresent (targetOf root) with
      | error e =>
        rw [runInit_of_directory hdirectory]
        unfold writeTemplate
        simp only [hpresent]
        refine .broken fun directory name h => ?_
        cases hpresent.symm.trans (isPresent_of_vacant h.vacant)
      | ok present =>
        cases present with
        | true =>
          obtain ⟨hexit, hdisk⟩ := runInit_of_present console hdirectory hpresent
          rw [hexit, hdisk]
          exact .present hdirectory hpresent
        | false =>
          cases hlocate : disk.locate (targetOf root) with
          | ok found =>
            cases found with
            | node q n =>
              have htrue := Disk.holdsAt_of_node (p := fun _ => true)
                (Disk.node_eq_ok.2 ⟨q, hlocate⟩)
              cases hpresent.symm.trans htrue
            | vacant directory name => exact initEnding_of_vacant hdirectory hlocate
          | error f =>
            have hwrite : disk.writeAt (targetOf root) (Text.encodeUtf8 Config.template.toList) =
                .error ⟨f, targetOf root⟩ := by rw [Disk.writeAt, hlocate]
            rw [runInit_of_directory hdirectory]
            unfold writeTemplate
            simp only [hpresent, hwrite, Bool.false_and, Bool.false_eq_true, if_false]
            exact .broken fun directory name h => by cases hlocate.symm.trans h.vacant

namespace Creatable

theorem spares (h : Creatable disk root directory name) :
    disk.Spares (disk.withBytes (directory ++ [name]) templateBytes .full) templateBytes := by
  obtain ⟨entries, access, hat, hchild⟩ := Disk.at?_of_vacant (Disk.locate_ok h.vacant).2
  exact (Disk.gains_withBytes hat hchild).spares

theorem located (h : Creatable disk root directory name) :
    let after := disk.withBytes (directory ++ [name]) templateBytes .full
    after.isDirectory (Path.normal root) = .ok true ∧
      ∃ f access, after.locate (targetOf root) = .ok (.node f (.file templateBytes access)) := by
  have hspares := h.spares
  obtain ⟨entries, access, hat, hchild⟩ := Disk.at?_of_vacant (Disk.locate_ok h.vacant).2
  have hwrites : disk.Writes (disk.withBytes (directory ++ [name]) templateBytes .full)
      (directory ++ [name]) templateBytes := (Disk.gains_withBytes hat hchild).writes
  obtain ⟨v, hv⟩ := hwrites.locate_file h.vacant (.inr ⟨_, _, rfl, rfl⟩)
  obtain ⟨q, n, hroot, hn⟩ := Disk.locate_of_holdsAt h.isDirectory
  obtain ⟨m, hm, hkept⟩ := hspares.paths _ q n hroot
  have hdir : m.isDirectory = true := by
    rcases hkept with rfl | ⟨_, _, _, -, rfl⟩
    · exact hn
    · rfl
  refine ⟨?_, _, v, hv⟩
  rw [Disk.isDirectory, Disk.holdsAt_of_node (Disk.node_eq_ok.2 ⟨q, hm⟩), hdir]

end Creatable

namespace InitEnding

theorem spares (h : InitEnding disk console root exit after) : disk.Spares after templateBytes := by
  cases h with
  | noDirectory | present | broken => exact .refl disk templateBytes
  | created hcreatable | unprinted hcreatable => exact hcreatable.spares

theorem unchanged (h : InitEnding disk console root exit after) (hexit : exit ≠ .ok 0)
    (hprint : ∀ words, exit ≠ .error (.print words)) : after = disk := by
  cases h with
  | noDirectory | present | broken => rfl
  | created => exact absurd rfl hexit
  | unprinted => exact absurd rfl (hprint _)

theorem exit_eq_zero_iff (h : InitEnding disk console root exit after) :
    exit = .ok 0 ↔ (∃ directory name, Creatable disk root directory name) ∧
      console.refusal? ("Wrote " ++ targetOf root) = none := by
  cases h with
  | noDirectory hdirectory =>
    refine ⟨by simp, fun ⟨⟨_, _, hcreatable⟩, _⟩ => ?_⟩
    cases hdirectory.symm.trans hcreatable.isDirectory
  | present hdirectory hpresent =>
    refine ⟨by simp, fun ⟨⟨_, _, hcreatable⟩, _⟩ => ?_⟩
    cases hpresent.symm.trans (isPresent_of_vacant hcreatable.vacant)
  | created hcreatable htaken => exact ⟨fun _ => ⟨⟨_, _, hcreatable⟩, htaken⟩, fun _ => rfl⟩
  | unprinted _ hrefusal =>
    refine ⟨by simp, fun ⟨_, htaken⟩ => ?_⟩
    cases hrefusal.symm.trans htaken
  | broken hbroken => exact ⟨by simp, fun ⟨⟨_, _, hcreatable⟩, _⟩ => absurd hcreatable (hbroken _ _)⟩

theorem located (h : InitEnding disk console root (.ok 0) after) :
    after.isDirectory (Path.normal root) = .ok true ∧
      ∃ f access, after.locate (targetOf root) = .ok (.node f (.file templateBytes access)) := by
  cases h with
  | created hcreatable _ => exact hcreatable.located

end InitEnding

end Command

/-- Writing the settings file without force destroys nothing, whatever the run comes to. A run that
does not end with zero leaves the disk as it was, unless it has written the file and cannot print so.
One that ends with zero has found a directory and nothing at its file, has written the template
there, and a further run finds the file and changes nothing. -/
theorem init_destroys_nothing (disk : Disk) (setting : Command.Setting) (words : List String)
    (root : String) (hread : Command.Order.read words = .init root false) :
    disk.Spares (Command.run disk setting words).disk Command.templateBytes ∧
    ((Command.run disk setting words).exit ≠ .ok 0 →
      (∀ refusal, (Command.run disk setting words).exit ≠ .error (.print refusal)) →
      (Command.run disk setting words).disk = disk) ∧
    ((Command.run disk setting words).exit = .ok 0 ↔
      (∃ directory name, Command.Creatable disk root directory name) ∧
        setting.console.refusal? ("Wrote " ++ Command.targetOf root) = none) ∧
    ((Command.run disk setting words).exit = .ok 0 →
      (∃ f access, (Command.run disk setting words).disk.locate (Command.targetOf root) =
        .ok (.node f (.file Command.templateBytes access))) ∧
      ∀ setting' words', Command.Order.read words' = .init root false →
        (Command.run (Command.run disk setting words).disk setting' words').exit = .ok 1 ∧
        (Command.run (Command.run disk setting words).disk setting' words').disk =
          (Command.run disk setting words).disk) := by
  have hrun (d : Disk) (setting' : Command.Setting) (words' : List String)
      (h : Command.Order.read words' = .init root false) :
      Command.run d setting' words' = Command.runInit d setting'.console root false := by
    rw [Command.run, h, Command.carryOut]
  have hending := Command.initEnding disk setting.console root
  rw [hrun disk setting words hread]
  refine ⟨hending.spares, hending.unchanged, hending.exit_eq_zero_iff, fun hexit => ?_⟩
  rw [hexit] at hending
  obtain ⟨hdirectory, f, access, hfile⟩ := hending.located
  refine ⟨⟨f, access, hfile⟩, fun setting' words' hread' => ?_⟩
  rw [hrun _ setting' words' hread']
  exact Command.runInit_of_present _ hdirectory (Disk.holdsAt_of_node (Disk.node_eq_ok.2 ⟨f, hfile⟩))

def danglingDisk : Disk :=
  ⟨.directory [("r", .directory [
    (".keyhunter.yml", .link "d/new.yml"),
    ("d", .directory [("old.js", .file [] .full)] .full)] .full)] .full, ["r"]⟩

theorem init_destroys_nothing_dangling :
    Command.Order.read ["init", "/r"] = .init "/r" false ∧
    (Command.run danglingDisk sampleSetting ["init", "/r"]).exit = .ok 0 ∧
    (∃ n, (Command.run danglingDisk sampleSetting ["init", "/r"]).disk.root.at? ["r", "d", "old.js"]
      = some n ∧ (Node.file [] .full).Kept n) ∧
    (Command.run (Command.run danglingDisk sampleSetting ["init", "/r"]).disk sampleSetting
      ["init", "/r"]).exit = .ok 1 := by
  have hread : Command.Order.read ["init", "/r"] = .init "/r" false := by decide
  obtain ⟨hspares, -, hzero, hfurther⟩ :=
    init_destroys_nothing danglingDisk sampleSetting ["init", "/r"] "/r" hread
  have hexit := hzero.2 ⟨⟨["r", "d"], "new.yml", rfl, rfl, rfl⟩, rfl⟩
  exact ⟨hread, hexit, hspares.places ["r", "d", "old.js"] _ rfl,
    ((hfurther hexit).2 sampleSetting ["init", "/r"] hread).1⟩

end LeakScan
