import LeakScan.Proofs.Disk.Lookups
import LeakScan.Proofs.Scan.Fold
import LeakScan.Proofs.Walk.Reading
import Mathlib.Data.List.Sort

namespace LeakScan.Walk

variable {disk disk' : Disk} {skips : Config.Skips} {root name : String}
  {entries entries' : List (String × Node)} {access : Access} {place p q : Location}
  {bytes : List UInt8} {n : Node}

theorem inserted_of_sorted {places places' : List Location} {x : Location}
    (hsorted : places.Pairwise (· < ·)) (hsorted' : places'.Pairwise (· < ·))
    (hmem : ∀ p, p ∈ places' ↔ p = x ∨ p ∈ places) (hx : x ∉ places) :
    ∃ before after, places = before ++ after ∧ places' = before ++ x :: after ∧
      (∀ p ∈ before, p < x) ∧ ∀ p ∈ after, x < p := by
  obtain ⟨before, after, rfl⟩ := List.append_of_mem ((hmem x).2 (.inl rfl))
  obtain ⟨hbefore, hrest, hcross⟩ := List.pairwise_append.1 hsorted'
  obtain ⟨hafter, hrest⟩ := List.pairwise_cons.1 hrest
  have hlow (p : Location) (hp : p ∈ before) : p < x := hcross p hp x List.mem_cons_self
  have hothers : (before ++ after).Pairwise (· < ·) := hsorted'.sublist
    ((List.Sublist.refl before).append (List.sublist_cons_self x after))
  have hne (p : Location) (hp : p ∈ before ++ after) : p ≠ x := by
    rintro rfl
    rcases List.mem_append.1 hp with hp | hp
    · exact List.lt_irrefl _ (hlow _ hp)
    · exact List.lt_irrefl _ (hafter _ hp)
  refine ⟨before, after, hsorted.eq_of_mem_iff hothers fun p => ?_, rfl, hlow, hafter⟩
  constructor
  · intro hp
    have hp' := (hmem p).2 (.inr hp)
    rw [List.mem_append, List.mem_cons] at hp'
    rw [List.mem_append]
    rcases hp' with hp' | rfl | hp'
    · exact .inl hp'
    · exact absurd hp hx
    · exact .inr hp'
  · intro hp
    have hp' : p ∈ before ++ x :: after := by
      rw [List.mem_append] at hp ⊢
      exact hp.imp_right (List.mem_cons_of_mem x)
    exact ((hmem p).1 hp').resolve_left (hne p hp)

/-- The entries of a root that gains a file, with the links below it that could come upon the file.
-/
structure RootGains (disk disk' : Disk) (root : String) (place : Location) (name : String)
    (entries entries' : List (String × Node)) (access : Access) (bytes : List UInt8) : Prop where
  gains : disk.Gains disk' (place ++ [name]) bytes
  located : disk.locate root = .ok (.node place (.directory entries access))
  located' : disk'.locate root = .ok (.node place (.directory entries' access))
  readable : access.read = true
  absolute : Path.isAbsolute root = true
  wellFormed : Node.WellFormed (.directory entries access)
  wellFormed' : Node.WellFormed (.directory entries' access)
  /-- No link below the root asks for the new file. -/
  unasked : ∀ q target, Node.at? (.directory entries access) q = some (.link target) →
    place ++ [name] ∉ disk.lookups (pathBelow root q)

namespace RootGains

variable (h : RootGains disk disk' root place name entries entries' access bytes)

include h

theorem at?_top (p : Location) :
    Node.at? (.directory entries access) p = disk.root.at? (place ++ p) := by
  rw [Node.at?_append, Disk.at?_of_locateFrom (Disk.locate_ok h.located).2, Option.bind_some]

theorem at?_top' (p : Location) :
    Node.at? (.directory entries' access) p = disk'.root.at? (place ++ p) := by
  rw [Node.at?_append, Disk.at?_of_locateFrom (Disk.locate_ok h.located').2, Option.bind_some]

theorem at?_missing : Node.at? (.directory entries access) [name] = none := by
  rw [h.at?_top, h.gains.missing]

theorem at?_gained : Node.at? (.directory entries' access) [name] = some (.file bytes .full) := by
  rw [h.at?_top', h.gains.gained]

theorem at?_near (hp : p ≠ [name]) : Node.Near some (Node.at? (.directory entries access) p)
    (Node.at? (.directory entries' access) p) := by
  rw [h.at?_top, h.at?_top']
  exact h.gains.others _ fun heq => hp (List.append_cancel_left heq)

theorem directory_iff {w : Access} :
    (∃ inner, Node.at? (.directory entries' access) p = some (.directory inner w)) ↔
      ∃ inner, Node.at? (.directory entries access) p = some (.directory inner w) := by
  by_cases hp : p = [name]
  · rw [hp, h.at?_missing, h.at?_gained]
    simp
  · rcases h.at?_near hp with heq | ⟨inner, inner', w, hat, hat'⟩
    · rw [heq]
    · simp [hat, hat']

theorem at?_iff (hp : p ≠ [name]) (hn : n.isDirectory = false) :
    Node.at? (.directory entries' access) p = some n ↔
      Node.at? (.directory entries access) p = some n := by
  rcases h.at?_near hp with heq | ⟨inner, inner', w, hat, hat'⟩
  · rw [heq]
  · rw [hat, hat']
    constructor
    · intro heq
      rw [← Option.some.inj heq] at hn
      cases hn
    · intro heq
      rw [← Option.some.inj heq] at hn
      cases hn

theorem node_near (hat : Node.at? (.directory entries access) p = some n) :
    Node.Near .ok (disk.node (pathBelow root p)) (disk'.node (pathBelow root p)) := by
  refine h.gains.node_near (isAbsolute_pathBelow h.absolute p) ?_
  by_cases hlink : ∃ target, n = .link target
  · obtain ⟨target, rfl⟩ := hlink
    exact h.unasked p target hat
  · refine Disk.not_lookups h.gains.missing fun hnone => ?_
    rcases locate_pathBelow h.located h.absolute h.wellFormed hat
      (fun target heq => hlink ⟨target, heq⟩) with hl | ⟨f, hf, hhides⟩
    · rw [Disk.node_eq_ok.2 ⟨_, hl⟩] at hnone
      cases hnone
    · obtain rfl := Except.error.inj (hf.symm.trans hnone)
      cases hhides

theorem documentAt_eq (hat : Node.at? (.directory entries access) p = some n) :
    documentAt disk' (pathBelow root p) p = documentAt disk (pathBelow root p) p := by
  unfold documentAt
  rw [Disk.readAt_of_near (h.node_near hat)]

theorem searchableAt_eq : Node.searchableAt (.directory entries' access) =
    Node.searchableAt (.directory entries access) := by
  funext q
  unfold Node.searchableAt
  by_cases hq : q = [name]
  · rw [hq, h.at?_missing, h.at?_gained]
  · rcases h.at?_near hq with heq | ⟨inner, inner', w, hat, hat'⟩
    · rw [heq]
    · rw [hat, hat']

theorem listable_iff : Listable root (.directory entries' access) p ↔
    Listable root (.directory entries access) p := by
  unfold Listable
  rw [h.searchableAt_eq, exists_comm, @exists_comm (List (String × Node)) Access]
  refine exists_congr fun w => ?_
  rw [exists_and_right, exists_and_right, h.directory_iff]

theorem opened_iff : Opened skips root (.directory entries' access) p ↔
    Opened skips root (.directory entries access) p := by
  constructor
  · exact fun ho => ⟨fun q hq => h.listable_iff.1 (ho.listable q hq), ho.kept⟩
  · exact fun ho => ⟨fun q hq => h.listable_iff.2 (ho.listable q hq), ho.kept⟩

theorem unlistable_iff : Unlistable skips root (.directory entries' access) p ↔
    Unlistable skips root (.directory entries access) p := by
  have hdirectory : (∃ inner w, Node.at? (.directory entries' access) p =
      some (.directory inner w)) ↔ ∃ inner w,
        Node.at? (.directory entries access) p = some (.directory inner w) := by
    constructor
    · rintro ⟨inner, w, hat⟩
      obtain ⟨inner', hat'⟩ := h.directory_iff.1 ⟨inner, hat⟩
      exact ⟨inner', w, hat'⟩
    · rintro ⟨inner, w, hat⟩
      obtain ⟨inner', hat'⟩ := h.directory_iff.2 ⟨inner, hat⟩
      exact ⟨inner', w, hat'⟩
  unfold Unlistable
  simp only [hdirectory, h.listable_iff, h.opened_iff]

theorem listed_eq (d : Location) (c : String) :
    Path.listed (pathBelow root d) c = pathBelow root (d ++ [c]) := by
  rw [← Path.below_of_isAbsolute (isAbsolute_pathBelow h.absolute d)]
  simp [pathBelow]

section Link

variable {d : Location} {c target : String}
  (hat : Node.at? (.directory entries access) (d ++ [c]) = some (.link target))

include hat

theorem leadsToDirectory_iff : LeadsToDirectory disk' root d c ↔ LeadsToDirectory disk root d c := by
  unfold LeadsToDirectory
  rw [h.listed_eq]
  rcases h.node_near hat with heq | ⟨inner, inner', w, hn, hn'⟩
  · rw [heq]
  · simp [hn, hn']

theorem node_error_iff {e : PathFault} :
    disk'.node (Path.listed (pathBelow root d) c) = .error e ↔
      disk.node (Path.listed (pathBelow root d) c) = .error e := by
  rw [h.listed_eq]
  rcases h.node_near hat with heq | ⟨inner, inner', w, hn, hn'⟩
  · rw [heq]
  · simp [hn, hn']

end Link

theorem link_iff {target : String} :
    Node.at? (.directory entries' access) p = some (.link target) ↔
      Node.at? (.directory entries access) p = some (.link target) := by
  by_cases hp : p = [name]
  · rw [hp, h.at?_missing, h.at?_gained]
    simp
  · exact h.at?_iff hp rfl

theorem eligible_iff (hp : p ≠ [name]) :
    Eligible disk' skips root (.directory entries' access) p ↔
      Eligible disk skips root (.directory entries access) p := by
  have hfile : (∃ bytes w, Node.at? (.directory entries' access) p = some (.file bytes w)) ↔
      ∃ bytes w, Node.at? (.directory entries access) p = some (.file bytes w) :=
    exists_congr fun bytes => exists_congr fun w => h.at?_iff hp rfl
  unfold Eligible
  refine exists_congr fun d => exists_congr fun c => and_congr_right fun heq => ?_
  rw [h.opened_iff, hfile]
  subst heq
  refine and_congr_right fun _ => and_congr_left fun _ => or_congr_right ?_
  refine exists_congr fun target => ?_
  rw [h.link_iff]
  exact and_congr_right fun hat => not_congr (h.leadsToDirectory_iff hat)

theorem eligible_gained (hsuffix : skipsFile skips name = false) :
    Eligible disk' skips root (.directory entries' access) [name] := by
  have hsize := (Disk.locate_ok h.located').1
  refine ⟨[], name, rfl,
    opened_nil.2 (listable_nil.2 ⟨⟨entries', access, rfl, h.readable⟩, hsize⟩),
    .inl ⟨bytes, .full, h.at?_gained⟩, skipsFile_eq_false.1 hsuffix⟩

theorem not_eligible_missing : ¬ Eligible disk skips root (.directory entries access) [name] := by
  intro heligible
  obtain ⟨n, hat⟩ := heligible.at?
  rw [h.at?_missing] at hat
  cases hat

theorem obstructs_iff {e : PathError} :
    Obstructs disk' skips root (.directory entries' access) p e ↔
      Obstructs disk skips root (.directory entries access) p e := by
  unfold Obstructs
  refine exists_congr fun d => exists_congr fun c => exists_congr fun target =>
    and_congr_right fun heq => ?_
  rw [h.opened_iff, h.link_iff]
  subst heq
  refine and_congr_right fun _ => and_congr_right fun hat => and_congr_right fun hpath =>
    and_congr_left fun _ => ?_
  rw [hpath, h.node_error_iff hat]

theorem fails_iff (hp : p ≠ [name]) :
    Fails disk' skips root (.directory entries' access) p ↔
      Fails disk skips root (.directory entries access) p := by
  unfold Fails
  rw [h.eligible_iff hp, h.unlistable_iff]
  refine or_congr_left (and_congr_right fun heligible => ?_)
  obtain ⟨n, hat⟩ := heligible.at?
  rw [h.documentAt_eq hat]

theorem failureAt_eq (hat : Node.at? (.directory entries access) p = some n) :
    failureAt disk' root (.directory entries' access) p =
      failureAt disk root (.directory entries access) p := by
  have hp : p ≠ [name] := by
    rintro rfl
    rw [h.at?_missing] at hat
    cases hat
  unfold failureAt
  rw [h.documentAt_eq hat]
  rcases h.at?_near hp with heq | ⟨inner, inner', w, hd, hd'⟩
  · rw [heq]
  · rw [hd, hd']

theorem node_root : disk.node root = .ok (.directory entries access) :=
  Disk.node_eq_ok.2 ⟨place, h.located⟩

theorem node_root' : disk'.node root = .ok (.directory entries' access) :=
  Disk.node_eq_ok.2 ⟨place, h.located'⟩

variable (hdone : (walk disk skips root).stopped = none)

include hdone

theorem completed : (walk disk' skips root).stopped = none := by
  rw [completed_iff_unobstructed h.node_root h.wellFormed] at hdone
  rw [completed_iff_unobstructed h.node_root' h.wellFormed']
  exact fun q e hq => hdone q e (h.obstructs_iff.1 hq)

theorem documents_inserted (hsuffix : skipsFile skips name = false) :
    ∃ before after, (walk disk skips root).documents = before ++ after ∧
      (walk disk' skips root).documents =
        before ++ documentAt disk' (pathBelow root [name]) [name] :: after ∧
      (∀ d ∈ before, Path.names d.path < [name]) ∧ ∀ d ∈ after, [name] < Path.names d.path := by
  obtain ⟨places, hsorted, hmem, hdocs⟩ := documents_of_completed h.node_root h.wellFormed hdone
  obtain ⟨places', hsorted', hmem', hdocs'⟩ :=
    documents_of_completed h.node_root' h.wellFormed' (h.completed hdone)
  obtain ⟨before, after, rfl, rfl, hbefore, hafter⟩ := inserted_of_sorted hsorted hsorted'
    (x := [name]) (fun p => by
      rw [hmem, hmem']
      by_cases hp : p = [name]
      · simp [hp, h.eligible_gained hsuffix]
      · simp [hp, h.eligible_iff hp]) (by rw [hmem]; exact h.not_eligible_missing)
  have hnames (p : Location) (hp : p ∈ before ++ after) : Path.names (relativeText p) = p := by
    obtain ⟨n, hat⟩ := ((hmem p).1 hp).at?
    exact names_relativeText (h.wellFormed.isName_of_at? hat)
  have hsame (p : Location) (hp : p ∈ before ++ after) :
      documentAt disk' (pathBelow root p) p = documentAt disk (pathBelow root p) p := by
    obtain ⟨n, hat⟩ := ((hmem p).1 hp).at?
    exact h.documentAt_eq hat
  refine ⟨before.map fun p => documentAt disk (pathBelow root p) p,
    after.map fun p => documentAt disk (pathBelow root p) p, ?_, ?_, ?_, ?_⟩
  · rw [hdocs, List.map_append]
  · rw [hdocs', List.map_append, List.map_cons,
      List.map_congr_left fun p hp => hsame p (List.mem_append_left _ hp),
      List.map_congr_left fun p hp => hsame p (List.mem_append_right _ hp)]
  · intro d hd
    obtain ⟨p, hp, rfl⟩ := List.mem_map.1 hd
    rw [path_documentAt, hnames p (List.mem_append_left _ hp)]
    exact hbefore p hp
  · intro d hd
    obtain ⟨p, hp, rfl⟩ := List.mem_map.1 hd
    rw [path_documentAt, hnames p (List.mem_append_right _ hp)]
    exact hafter p hp

theorem failures_eq
    (hread : (documentAt disk' (pathBelow root [name]) [name]).readError = none) :
    (walk disk' skips root).visits.filterMap Visit.failure? =
      (walk disk skips root).visits.filterMap Visit.failure? := by
  obtain ⟨places, hsorted, hmem, hfailures⟩ :=
    failures_of_completed h.node_root h.wellFormed hdone
  obtain ⟨places', hsorted', hmem', hfailures'⟩ :=
    failures_of_completed h.node_root' h.wellFormed' (h.completed hdone)
  obtain rfl : places' = places := hsorted'.eq_of_mem_iff hsorted fun p => by
    rw [hmem, hmem']
    by_cases hp : p = [name]
    · subst hp
      constructor
      · rintro (⟨-, hsome⟩ | hun)
        · rw [hread] at hsome
          cases hsome
        · obtain ⟨n, hat⟩ := (h.unlistable_iff.1 hun).at?
          rw [h.at?_missing] at hat
          cases hat
      · intro hfails
        obtain ⟨n, hat⟩ := hfails.at?
        rw [h.at?_missing] at hat
        cases hat
    · exact h.fails_iff hp
  rw [hfailures, hfailures']
  refine List.map_congr_left fun p hp => ?_
  obtain ⟨n, hat⟩ := ((hmem p).1 hp).at?
  exact h.failureAt_eq hat

end RootGains

end LeakScan.Walk
