import LeakScan.Disk.Locate
import Mathlib.Tactic.SplitIfs

namespace LeakScan

namespace Node

/-- Texts that an entry of a directory can be named by. -/
structure IsName (name : String) : Prop where
  ne_empty : name ≠ ""
  ne_dot : name ≠ "."
  ne_dots : name ≠ ".."
  no_slash : '/' ∉ name.toList
  no_nul : '\x00' ∉ name.toList

instance (name : String) : Decidable (IsName name) :=
  decidable_of_iff (name ≠ "" ∧ name ≠ "." ∧ name ≠ ".." ∧ '/' ∉ name.toList ∧ '\x00' ∉ name.toList)
    ⟨fun ⟨h, h1, h2, h3, h4⟩ => ⟨h, h1, h2, h3, h4⟩, fun ⟨h, h1, h2, h3, h4⟩ => ⟨h, h1, h2, h3, h4⟩⟩

inductive WellFormed : Node → Prop where
  | file (bytes : List UInt8) (access : Access) : WellFormed (.file bytes access)
  | directory {entries : List (String × Node)} (access : Access)
      (nodup : (entries.map (·.1)).Nodup) (names : ∀ e ∈ entries, IsName e.1)
      (below : ∀ e ∈ entries, WellFormed e.2) : WellFormed (.directory entries access)
  | link (target : String) : WellFormed (.link target)
  | pipe : WellFormed .pipe

variable {entries : List (String × Node)} {access : Access} {name : String} {n m : Node}

theorem WellFormed.directory_nodup (h : WellFormed (.directory entries access)) :
    (entries.map (·.1)).Nodup := by
  cases h with
  | directory _ nodup _ _ => exact nodup

theorem WellFormed.isName (h : WellFormed (.directory entries access)) {e : String × Node}
    (he : e ∈ entries) : IsName e.1 := by
  cases h with
  | directory _ _ names _ => exact names e he

theorem WellFormed.entry (h : WellFormed (.directory entries access)) {e : String × Node}
    (he : e ∈ entries) : WellFormed e.2 := by
  cases h with
  | directory _ _ _ below => exact below e he

theorem mem_of_child? (h : child? entries name = some n) : (name, n) ∈ entries := by
  obtain ⟨before, after, rfl, -⟩ := List.lookup_eq_some_iff.1 h
  simp

theorem child?_of_mem (hnodup : (entries.map (·.1)).Nodup) (h : (name, n) ∈ entries) :
    child? entries name = some n := by
  obtain ⟨before, after, rfl⟩ := List.append_of_mem h
  refine List.lookup_eq_some_iff.2 ⟨before, after, rfl, ?_⟩
  intro e he
  rw [List.map_append, List.nodup_append] at hnodup
  have hne := hnodup.2.2 e.1 (List.mem_map_of_mem he) name (by simp)
  simpa using Ne.symm hne

@[simp] theorem at?_nil : n.at? [] = some n := by
  cases n <;> rfl

theorem at?_cons {rest : Location} :
    (directory entries access).at? (name :: rest) = (child? entries name).bind (·.at? rest) := by
  rw [at?]
  cases child? entries name <;> rfl

theorem at?_append {place rest : Location} :
    n.at? (place ++ rest) = (n.at? place).bind (·.at? rest) := by
  induction place generalizing n with
  | nil => simp
  | cons name place ih =>
    cases n with
    | directory entries access =>
      rw [List.cons_append, at?_cons, at?_cons, Option.bind_assoc]
      congr 1
      funext k
      exact ih
    | file _ _ | link _ | pipe => rfl

theorem at?_cons_some {rest : Location} (h : n.at? (name :: rest) = some m) :
    ∃ entries access k, n = directory entries access ∧ child? entries name = some k ∧
      k.at? rest = some m := by
  cases n with
  | directory entries access =>
    rw [at?_cons] at h
    obtain ⟨k, hk, hm⟩ := Option.bind_eq_some_iff.1 h
    exact ⟨entries, access, k, rfl, hk, hm⟩
  | file _ _ | link _ | pipe => simp [at?] at h

theorem at?_append_some {place : Location} (h : n.at? (place ++ [name]) = some m) :
    ∃ entries access, n.at? place = some (directory entries access) ∧
      child? entries name = some m := by
  induction place generalizing n with
  | nil =>
    obtain ⟨entries, access, k, rfl, hk, hm⟩ := at?_cons_some h
    rw [at?_nil] at hm
    exact ⟨entries, access, at?_nil, Option.some.inj hm ▸ hk⟩
  | cons c place ih =>
    obtain ⟨entries, access, k, rfl, hk, hm⟩ := at?_cons_some h
    obtain ⟨inner, w, hinner, hchild⟩ := ih hm
    exact ⟨inner, w, by rw [at?_cons, hk]; exact hinner, hchild⟩

theorem at?_directory_link {entries : List (String × Node)} {access : Access} {q : Location}
    {target : String} (h : at? (.directory entries access) q = some (.link target)) :
    ∃ c rest n, q = c :: rest ∧ (c, n) ∈ entries ∧ n.at? rest = some (.link target) := by
  cases q with
  | nil => cases h
  | cons c rest =>
    obtain ⟨_, _, n, heq, hchild, hn⟩ := at?_cons_some h
    cases heq
    exact ⟨c, rest, n, rfl, mem_of_child? hchild, hn⟩

theorem eq_link_of_at? {n : Node} {q : Location} {target : String}
    (h : n.at? q = some (.link target)) (hn : n.isDirectory = false) :
    q = [] ∧ n = .link target := by
  cases q with
  | nil => exact ⟨rfl, Option.some.inj h⟩
  | cons c rest =>
    obtain ⟨_, _, _, rfl, -, -⟩ := at?_cons_some h
    cases hn

theorem WellFormed.at? {place : Location} (hn : n.WellFormed) (h : n.at? place = some m) :
    m.WellFormed := by
  induction place generalizing n with
  | nil =>
    rw [at?_nil] at h
    exact Option.some.inj h ▸ hn
  | cons name rest ih =>
    obtain ⟨entries, access, k, rfl, hk, hm⟩ := at?_cons_some h
    exact ih (hn.entry (mem_of_child? hk)) hm

theorem WellFormed.isName_of_at? {place : Location} (hn : n.WellFormed)
    (h : n.at? place = some m) : ∀ name ∈ place, IsName name := by
  induction place generalizing n with
  | nil => simp
  | cons name rest ih =>
    obtain ⟨entries, access, k, rfl, hk, hm⟩ := at?_cons_some h
    have hmem := mem_of_child? hk
    intro c hc
    rcases List.mem_cons.1 hc with rfl | hc
    · exact hn.isName hmem
    · exact ih (hn.entry hmem) hm c hc

end Node

namespace Disk

variable {root n : Node} {place q : Location} {steps : List String}

theorem moveOf_empty (access : Access) : moveOf access "" = .stay := if_pos rfl

theorem moveOf_denied {access : Access} {step : String} (hsearch : access.search = false)
    (hstep : step ≠ "") : moveOf access step = .refused .denied := by
  rw [moveOf, if_neg hstep, hsearch]
  rfl

theorem moveOf_dot {access : Access} (hsearch : access.search = true) :
    moveOf access "." = .stay := by
  rw [moveOf, hsearch]
  rfl

theorem moveOf_name {access : Access} {name : String} (hname : Node.IsName name) :
    moveOf access name = if !access.search then .refused .denied
      else if nameLimit < name.utf8ByteSize then .refused .nameTooLong else .lookUp := by
  rw [moveOf, if_neg hname.ne_empty, if_neg hname.ne_dot, if_neg hname.ne_dots]

theorem moveOf_name_cases (access : Access) {name : String} (hname : Node.IsName name) :
    (∃ f, moveOf access name = .refused f) ∨ moveOf access name = .lookUp := by
  rw [moveOf_name hname]
  split
  · exact .inl ⟨_, rfl⟩
  · split
    · exact .inl ⟨_, rfl⟩
    · exact .inr rfl

theorem moveOf_refused {access : Access} {step : String} {f : PathFault}
    (h : moveOf access step = .refused f) : f = .denied ∨ f = .nameTooLong := by
  unfold moveOf at h
  split_ifs at h <;> cases h <;> simp

theorem moveOf_stay {access : Access} {step : String} (h : moveOf access step = .stay) :
    step = "" ∨ step = "." := by
  unfold moveOf at h
  split_ifs at h <;> simp_all

theorem moveOf_up {access : Access} {step : String} (h : moveOf access step = .up) :
    access.search = true ∧ step = ".." := by
  unfold moveOf at h
  split_ifs at h with _ hsearch _ hup
  exact ⟨by simpa using hsearch, hup⟩

theorem moveOf_lookUp {access : Access} {step : String} (h : moveOf access step = .lookUp) :
    access.search = true ∧ step ≠ "" ∧ step ≠ "." ∧ step ≠ ".." := by
  unfold moveOf at h
  split_ifs at h with hempty hsearch hdot hup
  exact ⟨by simpa using hsearch, hempty, hdot, hup⟩

theorem descend_cons {entries : List (String × Node)} {access : Access} {step : String}
    {rest : List String} (hat : root.at? place = some (.directory entries access)) :
    descend root place (step :: rest) =
      match moveOf access step with
      | .stay => descend root place rest
      | .up => descend root place.dropLast rest
      | .refused f => .fault f
      | .lookUp =>
        match root.at? (place ++ [step]) with
        | some (.link target) => .link place target rest
        | some _ => descend root (place ++ [step]) rest
        | none => if rest.isEmpty then .found (.vacant place step) else .fault .noEntry := by
  have hentry : Node.child? entries step = root.at? (place ++ [step]) := by
    rw [Node.at?_append, hat, Option.bind_some, Node.at?_cons]
    cases Node.child? entries step <;> simp
  rw [← hentry]
  cases hmove : moveOf access step with
  | stay | up | refused f => simp only [descend, hat, hmove]
  | lookUp =>
    cases hchild : Node.child? entries step with
    | none => simp only [descend, hat, hmove, hchild]
    | some n => cases n <;> simp only [descend, hat, hmove, hchild]

theorem at?_of_descend (h : descend root place steps = .found (.node q n)) :
    root.at? q = some n := by
  fun_induction descend root place steps <;> simp_all

theorem exists_descend {links : Nat} {f : Found} (h : locateFrom root links place steps = .ok f) :
    ∃ p more, descend root p more = .found f := by
  induction links generalizing place steps with
  | zero =>
    rw [locateFrom] at h
    split at h
    · next hf => exact ⟨_, _, Except.ok.inj h ▸ hf⟩
    · cases h
    · cases h
  | succ links ih =>
    rw [locateFrom] at h
    split at h
    · next hf => exact ⟨_, _, Except.ok.inj h ▸ hf⟩
    · cases h
    · exact ih h

theorem at?_of_locateFrom {links : Nat} (h : locateFrom root links place steps = .ok (.node q n)) :
    root.at? q = some n := by
  obtain ⟨p, more, hstop⟩ := exists_descend h
  exact at?_of_descend hstop

variable {d : Disk} {path : String}

theorem locate_ok {f : Found} (h : d.locate path = .ok f) :
    path.utf8ByteSize ≤ pathLimit ∧
      locateFrom d.root linkLimit (startOf d.here path) (Path.steps path) = .ok f := by
  unfold locate at h
  split at h
  · simp at h
  · split at h
    · simp at h
    · split at h
      · simp at h
      · next hsize => exact ⟨Nat.le_of_not_lt hsize, h⟩

theorem locate_of_node (h : d.node path = .ok n) :
    ∃ place, d.locate path = .ok (.node place n) := by
  unfold node at h
  split at h
  · next place m hl => exact ⟨place, Except.ok.inj h ▸ hl⟩
  · simp at h
  · simp at h

theorem size_le_of_node (h : d.node path = .ok n) : path.utf8ByteSize ≤ pathLimit := by
  obtain ⟨place, hl⟩ := locate_of_node h
  exact (locate_ok hl).1

theorem wellFormed_node (hd : d.root.WellFormed) (h : d.node path = .ok n) : n.WellFormed := by
  obtain ⟨place, hl⟩ := locate_of_node h
  exact hd.at? (at?_of_locateFrom (locate_ok hl).2)

end Disk

end LeakScan
