import LeakScan.Proofs.Disk.NewEntry
import Mathlib.Data.List.Induction

namespace LeakScan.Disk

def looks (root : Node) : Location → List String → List Location
  | _, [] => []
  | place, step :: rest =>
    match root.at? place with
    | some (.directory entries access) =>
      match moveOf access step with
      | .stay => looks root place rest
      | .up => looks root place.dropLast rest
      | .refused _ => []
      | .lookUp =>
        match Node.child? entries step with
        | some (.link _) => [place ++ [step]]
        | some _ => (place ++ [step]) :: looks root (place ++ [step]) rest
        | none => [place ++ [step]]
    | _ => []

def looksFrom (root : Node) : (links : Nat) → Location → List String → List Location
  | links, place, steps =>
    looks root place steps ++
      match descend root place steps with
      | .link directory target rest =>
        match links with
        | 0 => []
        | links + 1 => looksFrom root links (startOf directory target) (Path.steps target ++ rest)
      | _ => []

/-- The places at which the names of a path and of the links on its way are looked up. -/
def lookups (d : Disk) (path : String) : List Location :=
  if Path.hasNul path ∨ pathLimit < path.utf8ByteSize then []
  else looksFrom d.root linkLimit (startOf d.here path) (Path.steps path)

variable {root : Node} {f place : Location} {steps : List String} {links : Nat} {d d' : Disk}
  {path : String} {bytes : List UInt8}

section Entry

variable {entries : List (String × Node)} {access : Access} {step : String} {rest : List String}
  (hat : root.at? place = some (.directory entries access)) (hmove : moveOf access step = .lookUp)

include hat hmove

theorem descend_entry : descend root place (step :: rest) =
    match root.at? (place ++ [step]) with
    | some (.link target) => .link place target rest
    | some _ => descend root (place ++ [step]) rest
    | none => if rest.isEmpty then .found (.vacant place step) else .fault .noEntry := by
  have hstep : descend root place (step :: rest) = _ := descend_cons hat
  rw [hmove] at hstep
  exact hstep

theorem looks_entry : looks root place (step :: rest) =
    match root.at? (place ++ [step]) with
    | some (.link _) => [place ++ [step]]
    | some _ => (place ++ [step]) :: looks root (place ++ [step]) rest
    | none => [place ++ [step]] := by
  rw [looks, hat]
  simp only [hmove]
  rw [Node.child?_eq_at? hat]

end Entry

theorem descend_of_looks (hmem : f ∈ looks root place steps) (hmissing : root.at? f = none) :
    (∃ directory name, descend root place steps = .found (.vacant directory name)) ∨
      descend root place steps = .fault .noEntry := by
  fun_induction looks root place steps with
  | case1 place => simp at hmem
  | case2 place step rest entries access hat hmove ih => simpa [descend, hat, hmove] using ih hmem
  | case3 place step rest entries access hat hmove ih => simpa [descend, hat, hmove] using ih hmem
  | case4 => simp at hmem
  | case5 place step rest entries access hat hmove target hchild =>
    obtain rfl := List.mem_singleton.1 hmem
    rw [← Node.child?_eq_at? hat, hchild] at hmissing
    cases hmissing
  | case6 place step rest entries access hat hmove k hlink hchild ih =>
    rw [Node.child?_eq_at? hat] at hchild
    rcases List.mem_cons.1 hmem with rfl | hmem
    · rw [hchild] at hmissing
      cases hmissing
    · rw [descend_entry hat hmove, hchild]
      cases k with
      | link target => exact (hlink target rfl).elim
      | file _ _ | directory _ _ | pipe => exact ih hmem
  | case7 place step rest entries access hat hmove hchild =>
    rw [Node.child?_eq_at? hat] at hchild
    rw [descend_entry hat hmove, hchild]
    simp only
    split
    · exact .inl ⟨place, step, rfl⟩
    · exact .inr rfl
  | case8 => simp at hmem

theorem locateFrom_of_looks (hmem : f ∈ looks root place steps) (hmissing : root.at? f = none) :
    (∃ directory name, locateFrom root links place steps = .ok (.vacant directory name)) ∨
      locateFrom root links place steps = .error .noEntry :=
  (descend_of_looks hmem hmissing).imp
    (fun ⟨directory, name, h⟩ => ⟨directory, name, locateFrom_of_found h⟩) locateFrom_of_fault

theorem locateFrom_of_looksFrom (hmem : f ∈ looksFrom root links place steps)
    (hmissing : root.at? f = none) :
    (∃ directory name, locateFrom root links place steps = .ok (.vacant directory name)) ∨
      locateFrom root links place steps = .error .noEntry := by
  induction links generalizing place steps with
  | zero =>
    rw [looksFrom] at hmem
    rcases List.mem_append.1 hmem with hmem | hmem
    · exact locateFrom_of_looks hmem hmissing
    · split at hmem <;> simp at hmem
  | succ links ih =>
    rw [looksFrom] at hmem
    rcases List.mem_append.1 hmem with hmem | hmem
    · exact locateFrom_of_looks hmem hmissing
    · split at hmem
      · next directory target rest hlink =>
        rw [locateFrom, hlink]
        exact ih hmem
      · simp at hmem

theorem node_of_lookups (hmem : f ∈ d.lookups path) (hmissing : d.root.at? f = none) :
    d.node path = .error .noEntry := by
  unfold lookups at hmem
  split at hmem
  · simp at hmem
  · next hpath =>
    rw [not_or, Bool.not_eq_true] at hpath
    unfold node
    by_cases hne : path = ""
    · simp [locate, hne, Path.hasNul]
    · rw [locate_eq hpath.1 hne, if_neg hpath.2]
      rcases locateFrom_of_looksFrom hmem hmissing with ⟨directory, name, h⟩ | h
      · rw [h]
      · rw [h]

theorem not_lookups (hmissing : d.root.at? f = none) (hpath : d.node path ≠ .error .noEntry) :
    f ∉ d.lookups path := fun hmem => hpath (node_of_lookups hmem hmissing)

theorem at?_of_descend_link {q : Location} {target : String} {rest : List String}
    (h : descend root place steps = .link q target rest) : ∃ n, root.at? q = some n := by
  fun_induction descend root place steps <;> simp_all

structure Gains (d d' : Disk) (f : Location) (bytes : List UInt8) : Prop where
  here : d'.here = d.here
  missing : d.root.at? f = none
  gained : d'.root.at? f = some (.file bytes .full)
  others : ∀ q, q ≠ f → Node.Near some (d.root.at? q) (d'.root.at? q)

theorem gains_withBytes {entries : List (String × Node)} {access : Access} {name : String}
    (hat : d.root.at? place = some (.directory entries access))
    (hmissing : Node.child? entries name = none) :
    d.Gains (d.withBytes (place ++ [name]) bytes .full) (place ++ [name]) bytes := by
  have hnone : d.root.at? (place ++ [name]) = none := by rw [← Node.child?_eq_at? hat, hmissing]
  exact ⟨rfl, hnone, Node.at?_put_self hat,
    fun q hq => Node.near_put_leaf hat (by simp [hnone]) rfl hq⟩

namespace Gains

variable (h : d.Gains d' f bytes)

include h

theorem ne_nil : f ≠ [] := by
  rintro rfl
  simpa using h.missing

theorem dropLast_ne {n : Node} (hat : d.root.at? place = some n) : place.dropLast ≠ f := by
  intro heq
  cases place using List.reverseRecOn with
  | nil => exact h.ne_nil heq.symm
  | append_singleton p c =>
    rw [List.dropLast_concat] at heq
    rw [heq, Node.at?_append_eq_none (by simp [h.missing]) (by simp)] at hat
    cases hat

theorem directory_or (hplace : place ≠ f) :
    (∃ entries entries' access, d.root.at? place = some (.directory entries access) ∧
      d'.root.at? place = some (.directory entries' access)) ∨
    d'.root.at? place = d.root.at? place ∧
      ∀ entries access, d.root.at? place ≠ some (.directory entries access) := by
  rcases h.others place hplace with heq | hdirs
  · cases hat : d.root.at? place with
    | none => exact .inr ⟨heq.trans hat, by simp⟩
    | some n =>
      cases n with
      | directory entries w => exact .inl ⟨entries, entries, w, rfl, heq.trans hat⟩
      | file _ _ | link _ | pipe => exact .inr ⟨heq.trans hat, by simp⟩
  · exact .inl hdirs

theorem descend_near (hplace : place ≠ f) (hfree : f ∉ looks d.root place steps) :
    ∃ q, Node.Near (fun n => .found (.node q n)) (descend d.root place steps)
      (descend d'.root place steps) := by
  induction steps generalizing place with
  | nil =>
    refine ⟨place, ?_⟩
    rw [descend, descend]
    rcases h.others place hplace with heq | ⟨entries, entries', w, hat, hat'⟩
    · rw [heq]
      exact .inl rfl
    · rw [hat, hat']
      exact .inr ⟨entries, entries', w, rfl, rfl⟩
  | cons step rest ih =>
    rcases h.directory_or hplace with ⟨entries, entries', w, hat, hat'⟩ | ⟨heq, hno⟩
    · cases hmove : moveOf w step with
      | stay =>
        rw [looks, hat] at hfree
        simp only [hmove] at hfree
        simpa only [descend, hat, hat', hmove] using ih hplace hfree
      | up =>
        rw [looks, hat] at hfree
        simp only [hmove] at hfree
        simpa only [descend, hat, hat', hmove] using ih (h.dropLast_ne hat) hfree
      | refused e =>
        simp only [descend, hat, hat', hmove]
        exact ⟨[], .inl rfl⟩
      | lookUp =>
        rw [looks_entry hat hmove] at hfree
        rw [descend_entry hat hmove, descend_entry hat' hmove]
        have hne : place ++ [step] ≠ f := by
          rintro rfl
          refine hfree ?_
          split <;> exact List.mem_cons_self
        rcases h.others _ hne with heq | ⟨inner, inner', v, hk, hk'⟩
        · rw [heq]
          cases hk : d.root.at? (place ++ [step]) with
          | none => exact ⟨[], .inl rfl⟩
          | some k =>
            rw [hk] at hfree
            cases k with
            | link target => exact ⟨[], .inl rfl⟩
            | file _ _ | directory _ _ | pipe =>
              exact ih hne fun hmem => hfree (List.mem_cons_of_mem _ hmem)
        · rw [hk] at hfree
          rw [hk, hk']
          exact ih hne fun hmem => hfree (List.mem_cons_of_mem _ hmem)
    · rw [descend, descend, heq]
      cases hat : d.root.at? place with
      | none => exact ⟨[], .inl rfl⟩
      | some n =>
        cases n with
        | directory entries w => exact absurd hat (hno entries w)
        | file _ _ | link _ | pipe => exact ⟨[], .inl rfl⟩

theorem startOf_ne {q : Location} {target : String} {rest : List String}
    (hlink : descend d.root place steps = .link q target rest) : startOf q target ≠ f := by
  unfold startOf
  split
  · exact h.ne_nil.symm
  · rintro rfl
    obtain ⟨n, hat⟩ := at?_of_descend_link hlink
    rw [h.missing] at hat
    cases hat

theorem locateFrom_near (hplace : place ≠ f) (hfree : f ∉ looksFrom d.root links place steps) :
    ∃ q, Node.Near (fun n => .ok (.node q n)) (locateFrom d.root links place steps)
      (locateFrom d'.root links place steps) := by
  induction links generalizing place steps with
  | zero =>
    rw [looksFrom, List.mem_append, not_or] at hfree
    obtain ⟨q, heq | ⟨entries, entries', w, hd, hd'⟩⟩ := h.descend_near hplace hfree.1
    · refine ⟨q, .inl ?_⟩
      rw [locateFrom, locateFrom, heq]
    · exact ⟨q, .inr ⟨entries, entries', w, locateFrom_of_found hd, locateFrom_of_found hd'⟩⟩
  | succ links ih =>
    rw [looksFrom, List.mem_append, not_or] at hfree
    obtain ⟨q, heq | ⟨entries, entries', w, hd, hd'⟩⟩ := h.descend_near hplace hfree.1
    · rw [locateFrom, locateFrom, heq]
      cases hstop : descend d.root place steps with
      | found x => exact ⟨q, .inl rfl⟩
      | fault e => exact ⟨q, .inl rfl⟩
      | link directory target rest =>
        rw [hstop] at hfree
        exact ih (h.startOf_ne hstop) hfree.2
    · exact ⟨q, .inr ⟨entries, entries', w, locateFrom_of_found hd, locateFrom_of_found hd'⟩⟩

theorem node_near (habsolute : Path.isAbsolute path = true) (hfree : f ∉ d.lookups path) :
    Node.Near .ok (d.node path) (d'.node path) := by
  have hne := Path.ne_empty_of_isAbsolute habsolute
  have hstart (here : Location) : startOf here path = [] := if_pos habsolute
  unfold node
  by_cases hnul : Path.hasNul path = true
  · have hlocate (d : Disk) : d.locate path = .error .nul := by rw [locate, if_pos hnul]
    rw [hlocate, hlocate]
    exact .inl rfl
  · rw [Bool.not_eq_true] at hnul
    rw [locate_eq hnul hne, locate_eq hnul hne, hstart, hstart]
    by_cases hlong : pathLimit < path.utf8ByteSize
    · rw [if_pos hlong, if_pos hlong]
      exact .inl rfl
    · rw [lookups, if_neg (by simp [hnul, hlong]), hstart] at hfree
      rw [if_neg hlong, if_neg hlong]
      obtain ⟨q, heq | ⟨entries, entries', w, hd, hd'⟩⟩ :=
        h.locateFrom_near h.ne_nil.symm hfree
      · rw [heq]
        exact .inl rfl
      · rw [hd, hd']
        exact .inr ⟨entries, entries', w, rfl, rfl⟩

end Gains

theorem readAt_of_near (h : Node.Near .ok (d.node path) (d'.node path)) :
    d'.readAt path = d.readAt path := by
  unfold readAt
  rcases h with heq | ⟨entries, entries', w, hd, hd'⟩
  · rw [heq]
  · rw [hd, hd']
    rfl

end LeakScan.Disk
