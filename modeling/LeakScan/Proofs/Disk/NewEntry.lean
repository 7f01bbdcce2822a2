import LeakScan.Proofs.Disk.Put

namespace LeakScan

namespace Node

variable {entries : List (String × Node)} {access : Access} {name c : String} {n k : Node}
  {place q f : Location}

theorem child?_eq_none_iff : child? entries name = none ↔ name ∉ entries.map (·.1) := by
  rw [child?, List.lookup_eq_none_iff, List.mem_map]
  constructor
  · rintro h ⟨e, he, rfl⟩
    simpa using h e he
  · intro h e he
    simpa using fun heq => h ⟨e, he, heq.symm⟩

theorem setEntry_new (h : name ∉ entries.map (·.1)) :
    setEntry name n entries = entries ++ [(name, n)] := by
  induction entries with
  | nil => rfl
  | cons e entries ih =>
    obtain ⟨c, m⟩ := e
    rw [List.map_cons, List.mem_cons, not_or] at h
    rw [setEntry, if_neg (Ne.symm h.1), ih h.2, List.cons_append]

theorem nodup_setEntry (h : (entries.map (·.1)).Nodup) :
    ((setEntry name n entries).map (·.1)).Nodup := by
  cases hchild : child? entries name with
  | some k => rwa [names_setEntry hchild]
  | none =>
    have hname := child?_eq_none_iff.1 hchild
    rw [setEntry_new hname, List.map_append]
    refine List.nodup_append.2 ⟨h, List.nodup_singleton _, fun a ha b hb heq => hname ?_⟩
    obtain rfl : b = name := List.mem_singleton.1 hb
    exact heq ▸ ha

theorem of_mem_setEntry (hnodup : (entries.map (·.1)).Nodup) {e : String × Node}
    (he : e ∈ setEntry name n entries) : e = (name, n) ∨ e ∈ entries := by
  obtain ⟨c, m⟩ := e
  have hchild := child?_of_mem (nodup_setEntry hnodup) he
  rw [child?_setEntry] at hchild
  by_cases hc : c = name
  · rw [if_pos hc] at hchild
    exact .inl (by rw [hc, Option.some.inj hchild])
  · rw [if_neg hc] at hchild
    exact .inr (mem_of_child? hchild)

theorem WellFormed.setEntry (h : WellFormed (.directory entries access)) (hname : IsName name)
    (hn : n.WellFormed) : WellFormed (.directory (Node.setEntry name n entries) access) := by
  refine .directory access (nodup_setEntry h.directory_nodup) (fun e he => ?_) fun e he => ?_
  · rcases of_mem_setEntry h.directory_nodup he with rfl | he
    · exact hname
    · exact h.isName he
  · rcases of_mem_setEntry h.directory_nodup he with rfl | he
    · exact hn
    · exact h.entry he

theorem child?_eq_at? (hat : n.at? place = some (directory entries access)) (c : String) :
    child? entries c = n.at? (place ++ [c]) := by
  rw [at?_append, hat, Option.bind_some, at?_cons]
  cases child? entries c <;> simp

/-- The same was found, or a directory that may have other entries. -/
def Near {α : Type} (found : Node → α) (x y : α) : Prop :=
  y = x ∨ ∃ entries entries' access,
    x = found (.directory entries access) ∧ y = found (.directory entries' access)

section Put

variable (hat : n.at? place = some (.directory entries access))

include hat

theorem WellFormed.put (hn : n.WellFormed) (hname : IsName name) (hk : k.WellFormed) :
    (n.put (place ++ [name]) k).WellFormed := by
  induction place generalizing n with
  | nil =>
    rw [at?_nil] at hat
    obtain rfl := Option.some.inj hat
    exact hn.setEntry hname hk
  | cons c place ih =>
    obtain ⟨inner, w, m, rfl, hchild, hm⟩ := at?_cons_some hat
    have hmem := mem_of_child? hchild
    rw [List.cons_append, put_cons hchild]
    exact hn.setEntry (hn.isName hmem) (ih hm (hn.entry hmem))

theorem at?_put_self : (n.put (place ++ [name]) k).at? (place ++ [name]) = some k := by
  induction place generalizing n with
  | nil =>
    rw [at?_nil] at hat
    obtain rfl := Option.some.inj hat
    rw [List.nil_append, put_singleton, at?_cons, child?_setEntry, if_pos rfl, Option.bind_some,
      at?_nil]
  | cons c place ih =>
    obtain ⟨inner, w, m, rfl, hchild, hm⟩ := at?_cons_some hat
    rw [List.cons_append, put_cons hchild, at?_cons, child?_setEntry, if_pos rfl, Option.bind_some,
      ih hm]

theorem near_put (hq : ¬ place ++ [name] <+: q) :
    Near some (n.at? q) ((n.put (place ++ [name]) k).at? q) := by
  induction place generalizing n q with
  | nil =>
    rw [at?_nil] at hat
    obtain rfl := Option.some.inj hat
    rw [List.nil_append, put_singleton]
    cases q with
    | nil => exact .inr ⟨_, _, access, at?_nil, at?_nil⟩
    | cons c q =>
      have hc : c ≠ name := by
        rintro rfl
        exact hq (List.cons_prefix_cons.2 ⟨rfl, List.nil_prefix⟩)
      rw [at?_cons, at?_cons, child?_setEntry, if_neg hc]
      exact .inl rfl
  | cons d place ih =>
    obtain ⟨inner, w, m, rfl, hchild, hm⟩ := at?_cons_some hat
    rw [List.cons_append, put_cons hchild]
    cases q with
    | nil => exact .inr ⟨_, _, w, at?_nil, at?_nil⟩
    | cons c q =>
      rw [at?_cons, at?_cons, child?_setEntry]
      by_cases hc : c = d
      · subst hc
        rw [if_pos rfl, hchild]
        exact ih hm fun h => hq (List.cons_prefix_cons.2 ⟨rfl, h⟩)
      · rw [if_neg hc]
        exact .inl rfl

end Put

theorem at?_append_eq_none (h : ∀ m, n.at? f = some m → m.isDirectory = false) (hq : q ≠ []) :
    n.at? (f ++ q) = none := by
  obtain ⟨c, q, rfl⟩ := List.exists_cons_of_ne_nil hq
  rw [at?_append]
  cases hat : n.at? f with
  | none => rfl
  | some m =>
    cases m with
    | directory _ _ => simpa [isDirectory] using h _ hat
    | file _ _ | link _ | pipe => rfl

theorem near_put_leaf (hat : n.at? place = some (directory entries access))
    (hold : ∀ m, n.at? (place ++ [name]) = some m → m.isDirectory = false)
    (hk : k.isDirectory = false) (hq : q ≠ place ++ [name]) :
    Near some (n.at? q) ((n.put (place ++ [name]) k).at? q) := by
  by_cases hprefix : place ++ [name] <+: q
  · obtain ⟨more, rfl⟩ := hprefix
    have hmore : more ≠ [] := by
      rintro rfl
      exact hq (List.append_nil _)
    rw [at?_append_eq_none hold hmore]
    refine .inl (at?_append_eq_none (fun m hm => ?_) hmore)
    rw [at?_put_self hat] at hm
    rwa [← Option.some.inj hm]
  · exact near_put hat hprefix

end Node

end LeakScan
