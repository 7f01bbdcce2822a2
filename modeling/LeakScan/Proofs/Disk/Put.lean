import LeakScan.Proofs.Disk.Below
import LeakScan.Proofs.Disk.Relisted

namespace LeakScan

namespace Node

variable {r r' : List UInt8 → List UInt8 → Prop} {entries : List (String × Node)} {access w : Access}
  {name c : String} {n m k : Node} {place q : Location} {bytes bytes' : List UInt8}

theorem Alike.mono (h : n.Alike r m) (hr : ∀ b b', r b b' → r' b b') : n.Alike r' m := by
  induction h with
  | file access related => exact .file access (hr _ _ related)
  | directory access names below ih => exact .directory access names ih
  | link target => exact .link target
  | pipe => exact .pipe

abbrev SameShape (n m : Node) : Prop := n.Alike (fun _ _ => True) m

theorem WellFormed.sameShape_self (hn : n.WellFormed) : n.SameShape n :=
  hn.relisted_self.alike.mono fun _ _ _ => trivial

theorem child?_cons : child? ((c, m) :: entries) name = if name = c then some m
    else child? entries name := by
  by_cases h : name = c
  · simp [child?, h]
  · rw [if_neg h, child?, List.lookup_cons, beq_false_of_ne h, child?]

theorem child?_setEntry :
    child? (setEntry name n entries) c = if c = name then some n else child? entries c := by
  induction entries with
  | nil => rw [setEntry, child?_cons]
  | cons e entries ih =>
    obtain ⟨k, m⟩ := e
    rw [setEntry, child?_cons]
    by_cases hk : k = name
    · subst hk
      rw [if_pos rfl, child?_cons]
      by_cases hc : c = k
      · rw [if_pos hc, if_pos hc]
      · rw [if_neg hc, if_neg hc, if_neg hc]
    · rw [if_neg hk, child?_cons, ih]
      by_cases hc : c = k
      · rw [if_pos hc, if_pos hc, if_neg (hc ▸ hk)]
      · rw [if_neg hc, if_neg hc]

theorem names_setEntry (h : child? entries name = some k) :
    (setEntry name n entries).map (·.1) = entries.map (·.1) := by
  induction entries with
  | nil => simp [child?] at h
  | cons e entries ih =>
    obtain ⟨c, m⟩ := e
    rw [setEntry]
    by_cases hc : c = name
    · subst hc
      rw [if_pos rfl]
      rfl
    · rw [child?_cons, if_neg (Ne.symm hc)] at h
      rw [if_neg hc, List.map_cons, List.map_cons, ih h]

theorem put_nil : n.put [] m = m := by cases n <;> rfl

theorem put_singleton : (directory entries access).put [name] n =
    directory (setEntry name n entries) access := rfl

theorem put_cons (hchild : child? entries name = some k) :
    (directory entries access).put (name :: place) n =
      directory (setEntry name (k.put place n) entries) access := by
  rw [put, update, hchild]
  rfl

theorem at?_put_of_not_prefix (hat : n.at? place = some (.file bytes w))
    (hq : ¬ q <+: place) : (n.put place (.file bytes' w)).at? q = n.at? q := by
  induction place generalizing n q with
  | nil =>
    obtain ⟨c, q, rfl⟩ : ∃ c q', q = c :: q' :=
      List.exists_cons_of_ne_nil fun h => hq (h ▸ List.nil_prefix)
    rw [at?_nil] at hat
    rw [put_nil, Option.some.inj hat]
    rfl
  | cons name rest ih =>
    obtain ⟨entries, access, k, rfl, hchild, hk⟩ := at?_cons_some hat
    obtain ⟨c, q, rfl⟩ : ∃ c q', q = c :: q' :=
      List.exists_cons_of_ne_nil fun h => hq (h ▸ List.nil_prefix)
    rw [put_cons hchild, at?_cons, at?_cons, child?_setEntry]
    by_cases hc : c = name
    · subst hc
      rw [if_pos rfl, hchild]
      exact ih hk fun h => hq (List.cons_prefix_cons.2 ⟨rfl, h⟩)
    · rw [if_neg hc]

theorem eq_of_prefix (hat : n.at? q = some (.file bytes w)) (hplace : n.at? place = some m)
    (h : q <+: place) : q = place := by
  obtain ⟨rest, rfl⟩ := h
  rw [at?_append, hat] at hplace
  cases rest with
  | nil => rw [List.append_nil]
  | cons c rest => simp [at?] at hplace

theorem sameShape_put (hn : n.WellFormed) (hat : n.at? place = some (.file bytes w)) :
    n.SameShape (n.put place (.file bytes' w)) := by
  induction place generalizing n with
  | nil =>
    rw [at?_nil] at hat
    rw [put_nil, Option.some.inj hat]
    exact .file w trivial
  | cons name rest ih =>
    obtain ⟨entries, access, k, rfl, hchild, hk⟩ := at?_cons_some hat
    have hmem := mem_of_child? hchild
    rw [put_cons hchild]
    refine .directory access ?_ fun e he e' he' heq => ?_
    · rw [names_setEntry hchild]
    · obtain ⟨c, m⟩ := e
      obtain ⟨c', m'⟩ := e'
      obtain rfl : c = c' := heq
      have hnodup : ((setEntry name (k.put rest (.file bytes' w)) entries).map (·.1)).Nodup := by
        rw [names_setEntry hchild]
        exact hn.directory_nodup
      have hm := child?_of_mem hn.directory_nodup he
      have hm' := child?_of_mem hnodup he'
      rw [child?_setEntry] at hm'
      by_cases hc : c = name
      · subst hc
        rw [if_pos rfl] at hm'
        rw [hchild] at hm
        obtain rfl := Option.some.inj hm
        obtain rfl := Option.some.inj hm'
        exact ih (hn.entry hmem) hk
      · rw [if_neg hc, hm] at hm'
        obtain rfl := Option.some.inj hm'
        exact (hn.entry he).sameShape_self

end Node

namespace Disk

variable {d : Disk} {f q : Location} {bytes bytes' : List UInt8} {w : Access} {path : String}

/-- The same disk with other bytes in the file at a place. -/
def withBytes (d : Disk) (f : Location) (bytes' : List UInt8) (w : Access) : Disk :=
  { d with root := d.root.put f (.file bytes' w) }

variable (hd : d.root.WellFormed) (hf : d.root.at? f = some (.file bytes w))

include hd hf

theorem alike_withBytes : d.Alike (fun _ _ => True) (d.withBytes f bytes' w) :=
  ⟨Node.sameShape_put hd hf, rfl⟩

theorem node_withBytes {b : List UInt8} {v : Access} (hq : d.locate path = .ok (.node q (.file b v)))
    (hne : q ≠ f) : (d.withBytes f bytes' w).node path = .ok (.file b v) := by
  have halike : d.Alike _ (d.withBytes f bytes' w) := alike_withBytes hd hf
  rcases (halike.locate hd path).eq_or with ⟨e, hl, -⟩ | ⟨x, y, hl, hl', hxy⟩
  · rw [hq] at hl
    cases hl
  · rw [hq] at hl
    cases hl
    cases hxy with
    | @node _ _ m _ =>
      have hold := at?_of_locateFrom (locate_ok hq).2
      have hnew := at?_of_locateFrom (locate_ok hl').2
      have hprefix : ¬ q <+: f := fun h => hne (Node.eq_of_prefix hold hf h)
      have hsame : (d.withBytes f bytes' w).root.at? q = d.root.at? q :=
        Node.at?_put_of_not_prefix hf hprefix
      rw [hnew, hold] at hsame
      rw [node_eq_ok]
      exact ⟨q, Option.some.inj hsame ▸ hl'⟩

theorem readAt_withBytes (h : ∀ n, d.locate path ≠ .ok (.node f n)) :
    (d.withBytes f bytes' w).readAt path = d.readAt path := by
  have halike : d.Alike _ (d.withBytes f bytes' w) := alike_withBytes hd hf
  rcases (halike.node hd path).eq_or with ⟨e, hn, hm⟩ | ⟨n, m, hn, hm, hnm⟩
  · rw [readAt, readAt, hn, hm]
  · cases hnm with
    | file v _ =>
      obtain ⟨q, hq⟩ := locate_of_node hn
      have hne : q ≠ f := fun heq => h _ (heq ▸ hq)
      rw [readAt, readAt, hn, node_withBytes hd hf hq hne]
    | directory _ _ _ | link _ | pipe => simp only [readAt, hn, hm, contentOf]

end Disk

end LeakScan
