import LeakScan.Disk.Canonical
import LeakScan.Proofs.Disk.Tree
import Mathlib.Data.List.Nodup
import Mathlib.Data.List.Perm.Basic

namespace LeakScan

/-- Two computations fail alike, or their answers are related. -/
inductive Agree {ε α β : Type} (r : α → β → Prop) : Except ε α → Except ε β → Prop where
  | ok {a : α} {b : β} : r a b → Agree r (.ok a) (.ok b)
  | error (e : ε) : Agree r (.error e) (.error e)

theorem Agree.eq_or {ε α β : Type} {r : α → β → Prop} {x : Except ε α} {y : Except ε β}
    (h : Agree r x y) :
    (∃ e, x = .error e ∧ y = .error e) ∨ ∃ a b, x = .ok a ∧ y = .ok b ∧ r a b := by
  cases h with
  | ok hab => exact .inr ⟨_, _, rfl, rfl, hab⟩
  | error e => exact .inl ⟨e, rfl, rfl⟩

variable {r : List UInt8 → List UInt8 → Prop}

namespace Node

/-- The same tree up to the order of entries and a relation between the bytes of files. -/
inductive Alike (r : List UInt8 → List UInt8 → Prop) : Node → Node → Prop where
  | file {bytes bytes' : List UInt8} (access : Access) (related : r bytes bytes') :
      Alike r (.file bytes access) (.file bytes' access)
  | directory {entries entries' : List (String × Node)} (access : Access)
      (names : (entries.map (·.1)).Perm (entries'.map (·.1)))
      (below : ∀ e ∈ entries, ∀ e' ∈ entries', e.1 = e'.1 → Alike r e.2 e'.2) :
      Alike r (.directory entries access) (.directory entries' access)
  | link (target : String) : Alike r (.link target) (.link target)
  | pipe : Alike r .pipe .pipe

variable {entries entries' : List (String × Node)} {access access' : Access} {name : String}
  {n m : Node}

namespace Alike

theorem wellFormed (h : n.Alike r m) (hn : n.WellFormed) : m.WellFormed := by
  induction h with
  | file access _ => exact .file _ access
  | @directory entries entries' access names below ih =>
    have hentry (e' : String × Node) (he' : e' ∈ entries') : ∃ e ∈ entries, e.1 = e'.1 := by
      simpa using names.mem_iff.2 (List.mem_map_of_mem he')
    refine .directory access (names.nodup_iff.1 hn.directory_nodup) ?_ ?_
    · intro e' he'
      obtain ⟨e, he, heq⟩ := hentry e' he'
      exact heq ▸ hn.isName he
    · intro e' he'
      obtain ⟨e, he, heq⟩ := hentry e' he'
      exact ih e he e' he' heq (hn.entry he)
  | link target => exact hn
  | pipe => exact hn

theorem symm (h : n.Alike r m) : m.Alike (flip r) n := by
  induction h with
  | file access related => exact .file access related
  | directory access names below ih =>
    exact .directory access names.symm fun e' he' e he heq => ih e he e' he' heq.symm
  | link target => exact .link target
  | pipe => exact .pipe

theorem child? (h : Alike r (.directory entries access) (.directory entries' access'))
    (hn : WellFormed (.directory entries access)) (name : String) :
    (Node.child? entries name = none ∧ Node.child? entries' name = none) ∨
      ∃ k k', Node.child? entries name = some k ∧ Node.child? entries' name = some k' ∧
        k.Alike r k' := by
  have hm := h.wellFormed hn
  cases h with
  | directory _ names below =>
    cases hchild : Node.child? entries name with
    | some k =>
      have hk := mem_of_child? hchild
      obtain ⟨⟨name', k'⟩, hk', heq⟩ := List.mem_map.1 (names.mem_iff.1 (List.mem_map_of_mem hk))
      obtain rfl : name' = name := heq
      exact .inr ⟨k, k', rfl, child?_of_mem hm.directory_nodup hk', below _ hk _ hk' rfl⟩
    | none =>
      refine .inl ⟨rfl, Option.eq_none_iff_forall_ne_some.2 fun k' hchild' => ?_⟩
      have hname := names.mem_iff.2 (List.mem_map_of_mem (mem_of_child? hchild'))
      obtain ⟨⟨name', k⟩, hk, heq⟩ := List.mem_map.1 hname
      obtain rfl : name' = name := heq
      rw [child?_of_mem hn.directory_nodup hk] at hchild
      simp at hchild

theorem at? (h : n.Alike r m) (hn : n.WellFormed) (place : Location) :
    (n.at? place = none ∧ m.at? place = none) ∨
      ∃ k k', n.at? place = some k ∧ m.at? place = some k' ∧ k.Alike r k' := by
  induction place generalizing n m with
  | nil => exact .inr ⟨n, m, at?_nil, at?_nil, h⟩
  | cons name rest ih =>
    cases h with
    | @directory entries entries' access names below =>
      rw [at?_cons, at?_cons]
      rcases (Alike.directory access names below).child? hn name with
        ⟨hk, hk'⟩ | ⟨k, k', hk, hk', hkk⟩
      · exact .inl ⟨by rw [hk]; rfl, by rw [hk']; rfl⟩
      · rw [hk, hk']
        exact ih hkk (hn.entry (mem_of_child? hk))
    | file _ _ | link _ | pipe => exact .inl ⟨rfl, rfl⟩

end Alike

theorem linkCountEntries_eq (entries : List (String × Node)) :
    linkCountEntries entries = (entries.map fun e => e.2.linkCount).foldr Nat.add 0 := by
  induction entries with
  | nil => rfl
  | cons e entries ih =>
    rw [linkCountEntries, ih]
    rfl

theorem Alike.linkCount_eq (h : n.Alike r m) (hn : n.WellFormed) : m.linkCount = n.linkCount := by
  induction h with
  | file access _ => rfl
  | @directory entries entries' access names below ih =>
    have hm := (Alike.directory access names below).wellFormed hn
    have hkeys {l : List (String × Node)} (hl : (l.map (·.1)).Nodup) :
        (l.map fun e => (e.1, e.2.linkCount)).Nodup :=
      List.Nodup.of_map Prod.fst (by simpa [Function.comp_def] using hl)
    have hperm : (entries'.map fun e => (e.1, e.2.linkCount)).Perm
        (entries.map fun e => (e.1, e.2.linkCount)) := by
      rw [List.perm_ext_iff_of_nodup (hkeys hm.directory_nodup) (hkeys hn.directory_nodup)]
      intro x
      simp only [List.mem_map]
      constructor
      · rintro ⟨e', he', rfl⟩
        obtain ⟨e, he, heq⟩ := List.mem_map.1 (names.mem_iff.2 (List.mem_map_of_mem he'))
        have heq : e.1 = e'.1 := heq
        exact ⟨e, he, by rw [heq, ih e he e' he' heq (hn.entry he)]⟩
      · rintro ⟨e, he, rfl⟩
        obtain ⟨e', he', heq⟩ := List.mem_map.1 (names.mem_iff.1 (List.mem_map_of_mem he))
        have heq : e'.1 = e.1 := heq
        exact ⟨e', he', by rw [heq, ih e he e' he' heq.symm (hn.entry he)]⟩
    rw [linkCount, linkCount, linkCountEntries_eq, linkCountEntries_eq]
    have hcounts := hperm.map Prod.snd
    have hadd : LeftCommutative Nat.add := ⟨Nat.add_left_comm⟩
    rw [List.map_map, List.map_map] at hcounts
    exact hcounts.foldr_eq 0
  | link target => rfl
  | pipe => rfl

end Node

namespace Disk

structure Alike (r : List UInt8 → List UInt8 → Prop) (d d' : Disk) : Prop where
  root : d.root.Alike r d'.root
  here : d.here = d'.here

inductive Found.Alike (r : List UInt8 → List UInt8 → Prop) : Found → Found → Prop where
  | node (place : Location) {n m : Node} : n.Alike r m → Alike r (.node place n) (.node place m)
  | vacant (directory : Location) (name : String) :
      Alike r (.vacant directory name) (.vacant directory name)

inductive Stop.Alike (r : List UInt8 → List UInt8 → Prop) : Stop → Stop → Prop where
  | found {f g : Found} : f.Alike r g → Alike r (.found f) (.found g)
  | fault (f : PathFault) : Alike r (.fault f) (.fault f)
  | link (directory : Location) (target : String) (rest : List String) :
      Alike r (.link directory target rest) (.link directory target rest)

variable {root root' : Node} {d d' : Disk}

theorem descend_alike (h : root.Alike r root') (hwf : root.WellFormed) (place : Location)
    (steps : List String) : (descend root place steps).Alike r (descend root' place steps) := by
  induction steps generalizing place with
  | nil =>
    rw [descend, descend]
    rcases h.at? hwf place with ⟨hn, hm⟩ | ⟨n, m, hn, hm, hnm⟩
    · rw [hn, hm]
      exact .fault _
    · rw [hn, hm]
      exact .found (.node place hnm)
  | cons step rest ih =>
    rw [descend, descend]
    rcases h.at? hwf place with ⟨hn, hm⟩ | ⟨n, m, hn, hm, hnm⟩
    · rw [hn, hm]
      exact .fault _
    · rw [hn, hm]
      cases hnm with
      | file _ _ | link _ | pipe => exact .fault _
      | @directory entries entries' access names below =>
        -- Only a name that is looked up depends on the entries.
        simp only
        cases moveOf access step with
        | stay => exact ih place
        | up => exact ih place.dropLast
        | refused f => exact .fault f
        | lookUp =>
          rcases (Node.Alike.directory access names below).child? (hwf.at? hn) step with
            ⟨hk, hk'⟩ | ⟨k, k', hk, hk', hkk⟩
          · rw [hk, hk']
            simp only
            split
            · exact .found (.vacant place step)
            · exact .fault _
          · rw [hk, hk']
            cases hkk with
            | link target => exact .link place target rest
            | file _ _ | directory _ _ _ | pipe => exact ih (place ++ [step])

theorem locateFrom_alike (h : root.Alike r root') (hwf : root.WellFormed) (links : Nat)
    (place : Location) (steps : List String) :
    Agree (Found.Alike r) (locateFrom root links place steps)
      (locateFrom root' links place steps) := by
  induction links generalizing place steps with
  | zero =>
    have hstop := descend_alike h hwf place steps
    rw [locateFrom, locateFrom]
    revert hstop
    generalize descend root place steps = stop, descend root' place steps = stop'
    rintro (hfound | f | ⟨directory, target, rest⟩)
    · exact .ok hfound
    · exact .error f
    · exact .error _
  | succ links ih =>
    have hstop := descend_alike h hwf place steps
    rw [locateFrom, locateFrom]
    revert hstop
    generalize descend root place steps = stop, descend root' place steps = stop'
    rintro (hfound | f | ⟨directory, target, rest⟩)
    · exact .ok hfound
    · exact .error f
    · exact ih _ _

theorem searchableAt_alike (h : root.Alike r root') (hwf : root.WellFormed) :
    root'.searchableAt = root.searchableAt := by
  funext place
  unfold Node.searchableAt
  rcases h.at? hwf place with ⟨hn, hm⟩ | ⟨n, m, hn, hm, hnm⟩
  · rw [hn, hm]
  · rw [hn, hm]
    cases hnm <;> rfl

theorem target?_alike (h : root.Alike r root') (hwf : root.WellFormed) (here place : Location)
    (spelling : Spelling) (name : String) :
    target? root' here place spelling name = target? root here place spelling name := by
  have hlook : canLook root' here place spelling = canLook root here place spelling := by
    cases spelling <;> simp only [canLook, wayIsOpen, searchableAt_alike h hwf]
  unfold target?
  rcases h.at? hwf (place ++ [name]) with ⟨hn, hm⟩ | ⟨n, m, hn, hm, hnm⟩
  · rw [hn, hm]
  · rw [hn, hm, hlook]
    cases hnm <;> rfl

theorem resolvePieces_alike (h : root.Alike r root') (hwf : root.WellFormed) {here : Location}
    {onLink onLink' : Location → Spelling → String → Resolved}
    (hlink : ∀ place spelling target,
      onLink' place spelling target = onLink place spelling target)
    (place : Location) (spelling : Spelling) (pieces : List String) :
    resolvePieces root' here onLink' place spelling pieces =
      resolvePieces root here onLink place spelling pieces := by
  induction pieces generalizing place spelling with
  | nil => rfl
  | cons piece rest ih =>
    rw [resolvePieces, resolvePieces]
    split
    · exact ih _ _
    · split
      · exact ih _ _
      · split
        · rfl
        · rw [target?_alike h hwf]
          split
          · simp only [hlink]
            split
            · exact ih _ _
            · rfl
            · rfl
          · exact ih _ _

theorem resolveLink_alike (h : root.Alike r root') (hwf : root.WellFormed) {here : Location}
    (depth : Nat) (opened : List (Location × Spelling)) (place : Location) (spelling : Spelling)
    (target : String) :
    resolveLink root' here depth opened place spelling target =
      resolveLink root here depth opened place spelling target := by
  induction depth generalizing opened place spelling target with
  | zero => rfl
  | succ depth ih =>
    rw [resolveLink, resolveLink]
    split
    · rfl
    · exact resolvePieces_alike h hwf (fun place spelling target => ih _ place spelling target)
        _ _ _

namespace Alike

theorem symm (h : d.Alike r d') : d'.Alike (flip r) d := ⟨h.root.symm, h.here.symm⟩

variable (h : d.Alike r d') (hwf : d.root.WellFormed) (path : String)

include h hwf

theorem locate : Agree (Found.Alike r) (d.locate path) (d'.locate path) := by
  unfold Disk.locate
  rw [← h.here]
  split
  · exact .error _
  · split
    · exact .error _
    · split
      · exact .error _
      · exact locateFrom_alike h.root hwf _ _ _

theorem node : Agree (Node.Alike r) (d.node path) (d'.node path) := by
  have hlocate := h.locate hwf path
  unfold Disk.node
  revert hlocate
  generalize d.locate path = x, d'.locate path = y
  rintro (⟨⟨place, hnm⟩ | ⟨directory, name⟩⟩ | f)
  · exact .ok hnm
  · exact .error _
  · exact .error f

theorem readAt (hpipe : r [] []) : Agree r (d.readAt path) (d'.readAt path) := by
  unfold Disk.readAt
  rcases (h.node hwf path).eq_or with ⟨f, hn, hm⟩ | ⟨n, m, hn, hm, hnm⟩
  · rw [hn, hm]
    exact .error _
  · rw [hn, hm]
    cases hnm with
    | file access hbytes =>
      simp only [contentOf]
      split
      · exact .ok hbytes
      · exact .error _
    | directory _ _ _ => exact .error _
    | link _ | pipe => exact .ok hpipe

theorem holdsAt_eq {p : Node → Bool} (hp : ∀ n m, n.Alike r m → p m = p n) :
    d'.holdsAt path p = d.holdsAt path p := by
  unfold Disk.holdsAt
  rcases (h.node hwf path).eq_or with ⟨f, hn, hm⟩ | ⟨n, m, hn, hm, hnm⟩
  · rw [hn, hm]
  · rw [hn, hm]
    simp only [hp n m hnm]

theorem isPresent_eq : d'.isPresent path = d.isPresent path :=
  h.holdsAt_eq hwf path fun _ _ _ => rfl

theorem isDirectory_eq : d'.isDirectory path = d.isDirectory path :=
  h.holdsAt_eq hwf path fun _ _ hnm => by cases hnm <;> rfl

theorem canonical_eq : d'.canonical path = d.canonical path := by
  have hsettle (place : Location) : d'.settle place = d.settle place := by
    unfold settle
    rcases (h.node hwf (Path.ofLocation place)).eq_or with ⟨f, hn, hm⟩ | ⟨n, m, hn, hm, -⟩
    · simp only [hn, hm]
    · simp only [hn, hm]
  have hresolve : d'.resolve (Path.normal path) = d.resolve (Path.normal path) := by
    unfold resolve
    rw [← h.here, h.root.linkCount_eq hwf]
    exact resolvePieces_alike h.root hwf (resolveLink_alike h.root hwf _ _) _ _ _
  unfold canonical
  rw [hresolve]
  split
  · exact hsettle _
  · exact hsettle _
  · rfl

end Alike

end Disk

end LeakScan
