import LeakScan.Proofs.Disk.Lookups

namespace LeakScan

namespace Node

variable {n m : Node} {x : Option Node}

/-- Nodes of one kind. What a file holds and which entries a directory has may differ. -/
inductive SameKind : Node → Node → Prop where
  | file (bytes bytes' : List UInt8) (access : Access) :
      SameKind (.file bytes access) (.file bytes' access)
  | directory (entries entries' : List (String × Node)) (access : Access) :
      SameKind (.directory entries access) (.directory entries' access)
  | link (target : String) : SameKind (.link target) (.link target)
  | pipe : SameKind .pipe .pipe

theorem SameKind.refl (n : Node) : n.SameKind n := by
  cases n with
  | file bytes access => exact .file bytes bytes access
  | directory entries access => exact .directory entries entries access
  | link target => exact .link target
  | pipe => exact .pipe

theorem SameKind.trans {k : Node} (h : n.SameKind m) (h' : m.SameKind k) : n.SameKind k := by
  cases h with
  | file bytes bytes' access =>
    cases h' with
    | file _ bytes'' _ => exact .file bytes bytes'' access
  | directory entries entries' access =>
    cases h' with
    | directory _ entries'' _ => exact .directory entries entries'' access
  | link target => exact h'
  | pipe => exact h'

theorem SameKind.isFile_eq (h : n.SameKind m) : m.isFile = n.isFile := by
  cases h <;> rfl

abbrev Kept (n m : Node) : Prop := Near (fun n => n) n m

theorem Kept.sameKind (h : n.Kept m) : n.SameKind m := by
  rcases h with rfl | ⟨entries, entries', access, rfl, rfl⟩
  · exact .refl m
  · exact .directory entries entries' access

theorem exists_kept (h : Near some (some n) x) : ∃ m, x = some m ∧ n.Kept m := by
  rcases h with rfl | ⟨entries, entries', access, heq, rfl⟩
  · exact ⟨n, rfl, .inl rfl⟩
  · exact ⟨_, rfl, .inr ⟨entries, entries', access, Option.some.inj heq, rfl⟩⟩

/-- Every place that holds something in the first tree holds a node of the same kind in the second.
-/
def Grows (n m : Node) : Prop :=
  ∀ q k, n.at? q = some k → ∃ k', m.at? q = some k' ∧ k.SameKind k'

end Node

namespace Disk

variable {root root' n m : Node} {f p q place : Location} {steps : List String} {links : Nat}
  {d d' : Disk} {path name : String} {bytes : List UInt8}

/-- What becomes of what was found: it is found at the same place, and where nothing stood what now
stands there is found, unless it is a link. -/
inductive Found.Grown {α : Type} (root' : Node) (found : Found → α) : Found → α → Prop where
  | node {q : Location} {n m : Node} :
      n.SameKind m → Grown root' found (.node q n) (found (.node q m))
  | vacant {directory : Location} {name : String} {x : α} :
      (∀ m, root'.at? (directory ++ [name]) = some m → (∀ target, m ≠ .link target) →
        x = found (.node (directory ++ [name]) m)) → Grown root' found (.vacant directory name) x

theorem Found.Grown.map {α β : Type} {found : Found → α} {found' : Found → β} {f : Found} {x : α}
    {y : β} (h : Grown root' found f x) (hxy : ∀ g, x = found g → y = found' g) :
    Grown root' found' f y := by
  cases h with
  | node hkind => exact hxy _ rfl ▸ .node hkind
  | vacant h => exact .vacant fun m hm hlink => hxy _ (h m hm hlink)

inductive Stop.Grown (root' : Node) : Stop → Stop → Prop where
  | found {f : Found} {s : Stop} : f.Grown root' .found s → Grown root' (.found f) s
  | fault (f : PathFault) (s : Stop) : Grown root' (.fault f) s
  | link (directory : Location) (target : String) (rest : List String) :
      Grown root' (.link directory target rest) (.link directory target rest)

theorem descend_grown (h : root.Grows root') :
    (descend root place steps).Grown root' (descend root' place steps) := by
  induction steps generalizing place with
  | nil =>
    rw [descend, descend]
    cases hat : root.at? place with
    | none => exact .fault _ _
    | some n =>
      obtain ⟨m, hat', hkind⟩ := h place n hat
      rw [hat']
      exact .found (.node hkind)
  | cons step rest ih =>
    cases hat : root.at? place with
    | none =>
      rw [descend, hat]
      exact .fault _ _
    | some n =>
      obtain ⟨m, hat', hkind⟩ := h place n hat
      cases hkind with
      | file _ _ _ | link _ | pipe =>
        rw [descend, hat]
        exact .fault _ _
      | directory entries entries' access =>
        cases hmove : moveOf access step with
        | stay => simpa only [descend, hat, hat', hmove] using ih
        | up => simpa only [descend, hat, hat', hmove] using ih
        | refused f =>
          simp only [descend, hat, hmove]
          exact .fault _ _
        | lookUp =>
          rw [descend_entry hat hmove, descend_entry hat' hmove]
          cases hentry : root.at? (place ++ [step]) with
          | some k =>
            obtain ⟨k', hentry', hkind⟩ := h _ k hentry
            rw [hentry']
            cases hkind with
            | link target => exact .link _ _ _
            | file _ _ _ | directory _ _ _ | pipe => exact ih
          | none =>
            -- What is missing may stand there now, but it is met only if the steps end here.
            dsimp only
            split
            · next hrest =>
              refine .found (.vacant fun m hm hlink => ?_)
              rw [hm, List.isEmpty_iff.1 hrest]
              cases m with
              | link target => exact absurd rfl (hlink target)
              | file _ _ | directory _ _ | pipe => simp only [descend, hm]
            · exact .fault _ _

theorem locateFrom_grown (h : root.Grows root') {found : Found}
    (hfound : locateFrom root links place steps = .ok found) :
    found.Grown root' .ok (locateFrom root' links place steps) := by
  induction links using Nat.strongRecOn generalizing place steps with
  | _ links ih =>
    have hgrown : (descend root place steps).Grown root' (descend root' place steps) :=
      descend_grown h
    cases hd : descend root place steps with
    | found g =>
      rw [locateFrom_of_found hd] at hfound
      cases hfound
      rw [hd] at hgrown
      cases hgrown with
      | found hgrown => exact hgrown.map fun g hg => locateFrom_of_found hg
    | fault e =>
      rw [locateFrom_of_fault hd] at hfound
      cases hfound
    | link q target rest =>
      rw [hd] at hgrown
      generalize hd' : descend root' place steps = stop at hgrown
      cases hgrown
      cases links with
      | zero =>
        rw [locateFrom, hd] at hfound
        cases hfound
      | succ links =>
        rw [locateFrom, hd] at hfound
        rw [locateFrom, hd']
        exact ih links (Nat.lt_succ_self links) hfound

theorem locate_grown (hroot : d.root.Grows d'.root) (hhere : d'.here = d.here) {found : Found}
    (hfound : d.locate path = .ok found) : found.Grown d'.root .ok (d'.locate path) := by
  have hnul := hasNul_of_locate hfound
  have hne := ne_empty_of_locate hfound
  have hsize : ¬ pathLimit < path.utf8ByteSize := Nat.not_lt.2 (locate_ok hfound).1
  rw [locate_eq hnul hne, if_neg hsize] at hfound ⊢
  rw [hhere]
  exact locateFrom_grown hroot hfound

theorem at?_of_vacant (h : locateFrom root links place steps = .ok (.vacant q name)) :
    ∃ entries access, root.at? q = some (.directory entries access) ∧
      Node.child? entries name = none := by
  obtain ⟨p, more, hstop⟩ := exists_descend h
  fun_induction descend root p more with
  | case8 place step rest entries access hat hmove hchild hrest =>
    cases hstop
    exact ⟨entries, access, hat, hchild⟩
  | _ => simp_all

/-- The second disk has a file with these bytes where the first one has a file or nothing, and is
otherwise as the first one. -/
structure Writes (d d' : Disk) (f : Location) (bytes : List UInt8) : Prop where
  here : d'.here = d.here
  before : d.root.at? f = none ∨ ∃ old access, d.root.at? f = some (.file old access) ∧
    d'.root.at? f = some (.file bytes access)
  written : ∃ access, d'.root.at? f = some (.file bytes access)
  others : ∀ q, q ≠ f → Node.Near some (d.root.at? q) (d'.root.at? q)

theorem Gains.writes (h : d.Gains d' f bytes) : d.Writes d' f bytes :=
  ⟨h.here, .inl h.missing, ⟨.full, h.gained⟩, h.others⟩

namespace Writes

variable (h : d.Writes d' f bytes)

include h

theorem grows : d.root.Grows d'.root := by
  intro q k hk
  by_cases hq : q = f
  · subst hq
    rcases h.before with hnone | ⟨old, access, hold, hnew⟩
    · rw [hnone] at hk
      cases hk
    · rw [hold] at hk
      cases hk
      exact ⟨_, hnew, .file old bytes access⟩
  · have hnear := h.others q hq
    rw [hk] at hnear
    obtain ⟨k', hk', hkept⟩ := Node.exists_kept hnear
    exact ⟨k', hk', hkept.sameKind⟩

theorem locate (hlocate : d.locate path = .ok (.node q n)) (hq : q ≠ f) :
    ∃ m, d'.locate path = .ok (.node q m) ∧ n.Kept m := by
  have hgrown := locate_grown h.grows h.here hlocate
  generalize hx : d'.locate path = x at hgrown
  cases hgrown with
  | @node _ _ m _ =>
    have hnear := h.others q hq
    rw [at?_of_locateFrom (locate_ok hlocate).2, at?_of_locateFrom (locate_ok hx).2] at hnear
    obtain ⟨m', heq, hkept⟩ := Node.exists_kept hnear
    cases heq
    exact ⟨m, rfl, hkept⟩

theorem locate_file {found : Found} (hlocate : d.locate path = .ok found)
    (hfound : (∃ n, found = .node f n) ∨ ∃ directory name, found = .vacant directory name ∧
      f = directory ++ [name]) :
    ∃ access, d'.locate path = .ok (.node f (.file bytes access)) := by
  obtain ⟨access, hwritten⟩ := h.written
  refine ⟨access, ?_⟩
  have hgrown := locate_grown h.grows h.here hlocate
  rcases hfound with ⟨n, rfl⟩ | ⟨directory, name, rfl, rfl⟩
  · generalize hx : d'.locate path = x at hgrown
    cases hgrown with
    | @node _ _ m _ =>
      have hat := at?_of_locateFrom (locate_ok hx).2
      rw [hwritten] at hat
      rw [Option.some.inj hat]
  · cases hgrown with
    | vacant hgrown => exact hgrown _ hwritten (by simp)

end Writes

/-- Each place and each path that led to something does so still, to the same node or to a directory
that may have other entries, and nothing is new but at most one file with these bytes. -/
structure Spares (d d' : Disk) (bytes : List UInt8) : Prop where
  places : ∀ q n, d.root.at? q = some n → ∃ m, d'.root.at? q = some m ∧ n.Kept m
  paths : ∀ path q n, d.locate path = .ok (.node q n) →
    ∃ m, d'.locate path = .ok (.node q m) ∧ n.Kept m
  news : ∃ f, ∀ q n, d.root.at? q = none → d'.root.at? q = some n → q = f ∧ n = .file bytes .full

theorem Spares.refl (d : Disk) (bytes : List UInt8) : d.Spares d bytes := by
  refine ⟨fun q n hn => ⟨n, hn, .inl rfl⟩, fun path q n hn => ⟨n, hn, .inl rfl⟩, [], ?_⟩
  intro q n hnone hn
  rw [hnone] at hn
  cases hn

theorem Gains.ne (h : d.Gains d' f bytes) (hat : d.root.at? q = some n) : q ≠ f := by
  rintro rfl
  rw [h.missing] at hat
  cases hat

theorem Gains.spares (h : d.Gains d' f bytes) : d.Spares d' bytes where
  places q n hn := by
    have hnear := h.others q (h.ne hn)
    rw [hn] at hnear
    exact Node.exists_kept hnear
  paths path q n hn := h.writes.locate hn (h.ne (at?_of_locateFrom (locate_ok hn).2))
  news := by
    refine ⟨f, fun q n hnone hn => ?_⟩
    have hq : q = f := by
      by_contra hq
      rcases h.others q hq with heq | ⟨_, _, _, hdir, -⟩
      · rw [heq, hnone] at hn
        cases hn
      · rw [hnone] at hdir
        cases hdir
    subst hq
    rw [h.gained] at hn
    exact ⟨rfl, (Option.some.inj hn).symm⟩

theorem writes_withBytes {entries : List (String × Node)} {access w : Access}
    (hat : d.root.at? place = some (.directory entries access))
    (hold : d.root.at? (place ++ [name]) = none ∨
      ∃ old, d.root.at? (place ++ [name]) = some (.file old w)) :
    d.Writes (d.withBytes (place ++ [name]) bytes w) (place ++ [name]) bytes := by
  have hnew : (d.withBytes (place ++ [name]) bytes w).root.at? (place ++ [name]) =
      some (.file bytes w) := Node.at?_put_self hat
  refine ⟨rfl, ?_, ⟨w, hnew⟩, fun q hq => Node.near_put_leaf hat ?_ rfl hq⟩
  · rcases hold with hnone | ⟨old, hold⟩
    · exact .inl hnone
    · exact .inr ⟨old, w, hold, hnew⟩
  · rcases hold with hnone | ⟨old, hold⟩ <;> simp_all [Node.isDirectory]

theorem writes_over {old : List UInt8} {w : Access} (hold : d.root.at? f = some (.file old w)) :
    d.Writes (d.withBytes f bytes w) f bytes := by
  cases f using List.reverseRecOn with
  | nil =>
    -- The tree is this file and nothing else.
    have hroot : (d.withBytes [] bytes w).root = .file bytes w := Node.put_nil (n := d.root)
    refine ⟨rfl, .inr ⟨old, w, hold, ?_⟩, ⟨w, ?_⟩, fun q hq => .inl ?_⟩
    · rw [hroot, Node.at?_nil]
    · rw [hroot, Node.at?_nil]
    · obtain ⟨c, q, rfl⟩ := List.exists_cons_of_ne_nil hq
      rw [Node.at?_nil] at hold
      rw [hroot, Option.some.inj hold]
      rfl
  | append_singleton p c =>
    obtain ⟨entries, access, hat, -⟩ := Node.at?_append_some hold
    exact writes_withBytes hat (.inr ⟨old, hold⟩)

/-- Bytes that are written go to the file that the path leads to, or to a new one, and are found
there afterwards. What is no file takes them and keeps nothing. -/
theorem writes_of_writeAt (h : d.writeAt path bytes = .ok d') :
    (d' = d ∧ ∃ q n, d.locate path = .ok (.node q n) ∧ n.isFile = false) ∨
    ∃ f access, d.Writes d' f bytes ∧ d'.locate path = .ok (.node f (.file bytes access)) := by
  unfold writeAt at h
  split at h
  · next f old w hfound =>
    split at h
    · cases h
      have hwrites : d.Writes (d.withBytes f bytes w) f bytes :=
        writes_over (at?_of_locateFrom (locate_ok hfound).2)
      obtain ⟨w', hw'⟩ := hwrites.locate_file hfound (.inl ⟨_, rfl⟩)
      exact .inr ⟨f, w', hwrites, hw'⟩
    · cases h
  · cases h
  · next q n hfile hdirectory hfound =>
    cases h
    refine .inl ⟨rfl, q, n, hfound, ?_⟩
    cases n with
    | file bytes w => exact absurd rfl (hfile bytes w)
    | directory _ _ | link _ | pipe => rfl
  · next directory name hfound =>
    split at h
    · cases h
      obtain ⟨entries, access, hat, hchild⟩ := at?_of_vacant (locate_ok hfound).2
      rw [Node.child?_eq_at? hat] at hchild
      have hwrites : d.Writes (d.withBytes (directory ++ [name]) bytes .full) (directory ++ [name])
          bytes := writes_withBytes hat (.inl hchild)
      obtain ⟨w, hw⟩ := hwrites.locate_file hfound (.inr ⟨directory, name, rfl, rfl⟩)
      exact .inr ⟨_, w, hwrites, hw⟩
    · cases h
  · cases h

theorem located_of_writeAt {path' : String} (h : d.writeAt path' bytes = .ok d')
    (hn : d.locate path = .ok (.node q n)) :
    ∃ m, d'.locate path = .ok (.node q m) ∧ n.SameKind m := by
  rcases writes_of_writeAt h with ⟨rfl, -⟩ | ⟨f, access, hwrites, -⟩
  · exact ⟨n, hn, .refl n⟩
  · have hgrown := locate_grown hwrites.grows hwrites.here hn
    generalize hx : d'.locate path = x at hgrown
    cases hgrown with
    | node hkind => exact ⟨_, rfl, hkind⟩

end Disk

end LeakScan
