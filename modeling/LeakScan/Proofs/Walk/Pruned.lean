import LeakScan.Proofs.Walk.Coverage
import Mathlib.Data.List.Sort

namespace LeakScan

/-- What the first skip lists leave out is left out by the second ones. -/
structure Config.Skips.Within (fewer more : Config.Skips) : Prop where
  dirs : fewer.dirs ⊆ more.dirs
  extensions : fewer.extensions ⊆ more.extensions

namespace Walk

variable {disk : Disk} {fewer more : Config.Skips} {root : String} {entries : List (String × Node)}
  {access : Access} {q : Location} {s : Step}

theorem Traces.sublist {R S : Location → Step → Prop} {w w' : Walk} (h : Traces R w)
    (h' : Traces S w') (hSR : ∀ q s, S q s → R q s) (hdone : w.stopped = none) :
    w'.visits.Sublist w.visits := by
  obtain ⟨met, hsorted, -, hall, hvisits⟩ := h.visited
  obtain ⟨met', hsorted', hS, -, hvisits'⟩ := h'.visited
  have hsub : met' ⊆ met := fun ⟨q, v⟩ hqv => hall hdone q v (hSR _ _ (hS q v hqv))
  have hsubperm : List.Subperm met' met := List.subperm_of_subset (.of_map _ hsorted'.nodup) hsub
  rw [List.pairwise_map] at hsorted hsorted'
  -- The order of the places is strict, so members are enough to tell a sublist.
  have : Std.Antisymm fun a b : Location × Visit => a.1 < b.1 :=
    ⟨fun a b hab hba => absurd hba (List.lt_asymm hab)⟩
  rw [hvisits, hvisits']
  exact (List.sublist_of_subperm_of_pairwise hsubperm hsorted' hsorted).map _

theorem skipsFile_mono (h : fewer.Within more) {name : String}
    (hname : skipsFile more name = false) : skipsFile fewer name = false := by
  obtain ⟨suffix, hsuffix, hkept⟩ := skipsFile_eq_false.1 hname
  exact skipsFile_eq_false.2 ⟨suffix, hsuffix, fun hmem => hkept (h.extensions hmem)⟩

theorem ownStep?_mono (h : fewer.Within more) {searchable : Bool} {name listed path : String}
    {n : Node} (hs : ownStep? disk more searchable name listed path q n = some s) :
    ownStep? disk fewer searchable name listed path q n = some s := by
  have hfile (hs : fileStep? disk more name path q = some s) :
      fileStep? disk fewer name path q = some s := by
    unfold fileStep? at hs ⊢
    split at hs
    · simp at hs
    · next hskip =>
      rw [if_neg (by simp [skipsFile_mono h (Bool.eq_false_iff.2 hskip)])]
      exact hs
  cases n with
  | file bytes access => exact hfile hs
  | directory inner access =>
    simp only [ownStep?] at hs ⊢
    split at hs
    · simp at hs
    · next hname =>
      rw [if_neg fun hmem => hname (h.dirs hmem)]
      exact hs
  | link target =>
    simp only [ownStep?] at hs ⊢
    cases hlink : leadsToDirectory disk listed with
    | error e => simpa only [hlink] using hs
    | ok b =>
      cases b with
      | true => simp [hlink] at hs
      | false =>
        simp only [hlink] at hs ⊢
        exact hfile hs
  | pipe => exact hs

theorem Opened.mono (h : fewer.Within more) {top : Node} {d : Location}
    (hd : Opened more root top d) : Opened fewer root top d :=
  ⟨hd.listable, fun name hname hmem => hd.kept name hname (h.dirs hmem)⟩

section Root

variable (h : fewer.Within more) (hroot : disk.node root = .ok (.directory entries access))
  (hwf : Node.WellFormed (.directory entries access))

include h hroot hwf

theorem RootHappens.mono (hs : RootHappens disk more root entries access q s) :
    RootHappens disk fewer root entries access q s := by
  rw [rootHappens_iff hroot hwf] at hs ⊢
  rcases hs with hs | ⟨d, name, n, hq, hd, hat, hs⟩
  · exact .inl hs
  · exact .inr ⟨d, name, n, hq, hd.mono h, hat, ownStep?_mono h hs⟩

/-- If a walk is not stopped, neither is one that leaves out more, and this one meets a part of what
the other meets. -/
theorem walk_within (hdone : (walk disk fewer root).stopped = none) :
    (walk disk more root).stopped = none ∧
      (walk disk more root).visits.Sublist (walk disk fewer root).visits := by
  have hfewer : Traces (RootHappens disk fewer root entries access) (walk disk fewer root) :=
    traces_walk hroot hwf
  have hmore : Traces (RootHappens disk more root entries access) (walk disk more root) :=
    traces_walk hroot hwf
  refine ⟨hmore.not_stopped_iff.2 fun q e he => ?_, ?_⟩
  · exact hfewer.not_stopped_iff.1 hdone q e (he.mono h hroot hwf)
  · exact hfewer.sublist hmore (fun q s hs => hs.mono h hroot hwf) hdone

theorem walk_eq_of_within (h' : more.Within fewer) :
    walk disk more root = walk disk fewer root :=
  (traces_walk hroot hwf).unique ((traces_walk hroot hwf).congr fun _ _ =>
    ⟨fun hs => hs.mono h' hroot hwf, fun hs => hs.mono h hroot hwf⟩)

end Root

end Walk

end LeakScan
