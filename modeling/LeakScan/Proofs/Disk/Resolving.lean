import LeakScan.Proofs.Disk.Lookups
import LeakScan.Proofs.Disk.Rooted
import Mathlib.Data.List.Perm.Subperm
import Mathlib.Data.List.ProdSigma
import Mathlib.Data.Nat.Find

namespace LeakScan

namespace Node

mutual

def linkPlaces : Node → List Location
  | link _ => [[]]
  | directory entries _ => linkPlacesOf entries
  | _ => []

def linkPlacesOf : List (String × Node) → List Location
  | [] => []
  | (name, n) :: rest => (linkPlaces n).map (name :: ·) ++ linkPlacesOf rest

end

mutual

theorem length_linkPlaces : (n : Node) → n.linkPlaces.length = n.linkCount
  | link _ => rfl
  | directory entries _ => length_linkPlacesOf entries
  | file _ _ => rfl
  | pipe => rfl

theorem length_linkPlacesOf : (entries : List (String × Node)) →
    (linkPlacesOf entries).length = linkCountEntries entries
  | [] => rfl
  | (name, n) :: rest => by
    rw [linkPlacesOf, linkCountEntries, List.length_append, List.length_map, length_linkPlaces n,
      length_linkPlacesOf rest]

end

variable {entries : List (String × Node)} {name target : String} {n : Node} {q : Location}

theorem mem_linkPlacesOf (h : (name, n) ∈ entries) (hq : q ∈ n.linkPlaces) :
    name :: q ∈ linkPlacesOf entries := by
  induction entries with
  | nil => cases h
  | cons e entries ih =>
    rw [linkPlacesOf, List.mem_append]
    rcases List.mem_cons.1 h with rfl | h
    · exact .inl (List.mem_map_of_mem hq)
    · exact .inr (ih h)

theorem mem_linkPlaces (h : n.at? q = some (.link target)) : q ∈ n.linkPlaces := by
  induction q generalizing n with
  | nil =>
    rw [at?_nil] at h
    rw [Option.some.inj h]
    exact List.mem_singleton.2 rfl
  | cons name q ih =>
    obtain ⟨entries, access, k, rfl, hchild, hk⟩ := at?_cons_some h
    exact mem_linkPlacesOf (mem_of_child? hchild) (ih hk)

end Node

namespace Disk

variable {root n : Node} {here p q place : Location} {pieces steps more : List String}
  {s s' : Spelling} {onLink : Location → Spelling → String → Resolved} {links : Nat}

theorem wayIsOpen_iff {first : Nat} : wayIsOpen root first place = true ↔
    ∀ r, r <+: place → first ≤ r.length → root.searchableAt r = true := by
  simp only [wayIsOpen, List.all_eq_true, List.mem_range, Bool.or_eq_true, decide_eq_true_eq]
  constructor
  · intro h r hr hle
    have hopen := h r.length (Nat.lt_succ_of_le hr.length_le)
    rw [← List.prefix_iff_eq_take.1 hr] at hopen
    exact hopen.resolve_left (Nat.not_lt.2 hle)
  · intro h n hn
    have hlength : (place.take n).length = n := List.length_take_of_le (by omega)
    refine (Nat.lt_or_ge n first).imp_right fun hle => ?_
    exact h _ (List.take_prefix n place) (by rwa [hlength])

/-- A place that is told by names. A link on the way to it is one that the system does not show. -/
structure Screened (root : Node) (place : Location) : Prop where
  isName : ∀ c ∈ place, Node.IsName c
  hidden : ∀ p c target, p ++ [c] <+: place → root.at? (p ++ [c]) = some (.link target) →
    ∃ r, r <+: p ∧ root.searchableAt r = false

namespace Screened

theorem top : Screened root [] := by
  refine ⟨nofun, fun p c target hp => ?_⟩
  exact absurd (List.prefix_nil.1 hp) (by simp)

end Screened

/-- By a path that is spelled so the system looks up names wherever it can search every directory
from the top. -/
def Clear (root : Node) (here : Location) (s : Spelling) : Prop :=
  s = .fromTop ∨ ∀ r, r <+: here → root.searchableAt r = true

theorem Clear.goUp (hs : Clear root here s) : Clear root here (goUp here p s) := by
  rcases hs with rfl | hhere
  · exact .inl rfl
  · exact .inr hhere

variable {d : Disk} {path : String}

theorem locateFrom_congr (h : descend root p steps = descend root q more) :
    locateFrom root links p steps = locateFrom root links q more := by
  cases links with
  | zero => rw [locateFrom, locateFrom, h]
  | succ links => rw [locateFrom, locateFrom, h]

def Finds (root : Node) (links : Nat) (p : Location) (steps : List String) (q : Location) : Prop :=
  ∃ n, locateFrom root links p steps = .ok (.node q n)

namespace Finds

theorem unique {r : Location} (h : Finds root links p steps q) (h' : Finds root links p steps r) :
    q = r := by
  obtain ⟨n, hn⟩ := h
  obtain ⟨m, hm⟩ := h'
  rw [hn] at hm
  cases hm
  rfl

theorem nil (h : Finds root links p [] q) : q = p := by
  obtain ⟨n, hn⟩ := h
  cases hd : descend root p [] with
  | found f =>
    rw [locateFrom_of_found hd] at hn
    rw [descend] at hd
    split at hd
    · rw [← Stop.found.inj hd] at hn
      cases hn
      rfl
    · cases hd
  | fault f =>
    rw [locateFrom_of_fault hd] at hn
    cases hn
  | link directory target rest =>
    rw [descend] at hd
    split at hd <;> cases hd

/-- The first step is taken in a directory: it stays there, leaves it, follows a link in it or goes to
another entry. -/
theorem cons {step : String} {rest : List String} (h : Finds root links p (step :: rest) q) :
    ∃ entries access, root.at? p = some (.directory entries access) ∧
      (moveOf access step = .stay ∧ Finds root links p rest q ∨
        moveOf access step = .up ∧ Finds root links p.dropLast rest q ∨
        moveOf access step = .lookUp ∧
          ((∃ target left, root.at? (p ++ [step]) = some (.link target) ∧ links = left + 1 ∧
              Finds root left (startOf p target) (Path.steps target ++ rest) q) ∨
            ∃ m, root.at? (p ++ [step]) = some m ∧ (∀ target, m ≠ .link target) ∧
              Finds root links (p ++ [step]) rest q)) := by
  obtain ⟨n, hn⟩ := h
  obtain ⟨entries, access, hat⟩ : ∃ entries access, root.at? p = some (.directory entries access) := by
    cases hat : root.at? p with
    | none =>
      rw [locateFrom_of_fault (by rw [descend, hat])] at hn
      cases hn
    | some m =>
      cases m with
      | directory entries access => exact ⟨entries, access, rfl⟩
      | file _ _ | link _ | pipe =>
        rw [locateFrom_of_fault (by rw [descend, hat])] at hn
        cases hn
  refine ⟨entries, access, hat, ?_⟩
  have hstep : descend root p (step :: rest) = _ := descend_cons hat
  cases hmove : moveOf access step with
  | stay =>
    rw [hmove] at hstep
    exact .inl ⟨rfl, n, locateFrom_congr hstep ▸ hn⟩
  | up =>
    rw [hmove] at hstep
    exact .inr (.inl ⟨rfl, n, locateFrom_congr hstep ▸ hn⟩)
  | refused f =>
    rw [hmove] at hstep
    rw [locateFrom_of_fault hstep] at hn
    cases hn
  | lookUp =>
    refine .inr (.inr ⟨rfl, ?_⟩)
    rw [hmove] at hstep
    cases hentry : root.at? (p ++ [step]) with
    | none =>
      simp only [hentry] at hstep
      split at hstep
      · rw [locateFrom_of_found hstep] at hn
        cases hn
      · rw [locateFrom_of_fault hstep] at hn
        cases hn
    | some m =>
      simp only [hentry] at hstep
      cases m with
      | link target =>
        cases links with
        | zero =>
          rw [locateFrom, hstep] at hn
          cases hn
        | succ left =>
          rw [locateFrom, hstep] at hn
          exact .inl ⟨target, left, rfl, rfl, n, hn⟩
      | file _ _ | directory _ _ | pipe =>
        exact .inr ⟨_, rfl, by simp, n, locateFrom_congr hstep ▸ hn⟩

theorem idle {step : String} {rest : List String} (hstep : ¬ Path.matters step = true)
    (h : Finds root links p (step :: rest) q) : Finds root links p rest q := by
  rw [Path.matters_iff] at hstep
  obtain ⟨entries, access, -, ⟨-, h⟩ | ⟨hmove, -⟩ | ⟨hmove, -⟩⟩ := h.cons
  · exact h
  · exact absurd (by simp [(moveOf_up hmove).2]) hstep
  · exact absurd ⟨(moveOf_lookUp hmove).2.1, (moveOf_lookUp hmove).2.2.1⟩ hstep

theorem searchable (hat : root.at? p = some (.directory entries access))
    (hsearch : access.search = true) : root.searchableAt p = true := by
  rw [Node.searchableAt, hat]
  exact hsearch

theorem name {c : String} {rest : List String} (hmatters : Path.matters c = true) (hdots : c ≠ "..")
    (h : Finds root links p (c :: rest) q) : root.searchableAt p = true ∧
    ((∃ target left, root.at? (p ++ [c]) = some (.link target) ∧ links = left + 1 ∧
        Finds root left (startOf p target) (Path.steps target ++ rest) q) ∨
      ∃ m, root.at? (p ++ [c]) = some m ∧ (∀ target, m ≠ .link target) ∧
        Finds root links (p ++ [c]) rest q) := by
  rw [Path.matters_iff] at hmatters
  obtain ⟨entries, access, hat, ⟨hmove, -⟩ | ⟨hmove, -⟩ | ⟨hmove, h⟩⟩ := h.cons
  · exact absurd (moveOf_stay hmove) (by simp [hmatters])
  · exact absurd (moveOf_up hmove).2 hdots
  · exact ⟨searchable hat (moveOf_lookUp hmove).1, h⟩

theorem mono {more : Nat} (h : Finds root links p steps q) (hle : links ≤ more) :
    Finds root more p steps q := by
  obtain ⟨n, hn⟩ := h
  refine ⟨n, ?_⟩
  induction links generalizing p steps more with
  | zero =>
    cases hd : descend root p steps with
    | found f => rwa [locateFrom_of_found hd] at hn ⊢
    | fault f =>
      rw [locateFrom_of_fault hd] at hn
      cases hn
    | link directory target rest =>
      rw [locateFrom, hd] at hn
      cases hn
  | succ links ih =>
    obtain ⟨more, rfl⟩ : ∃ m, more = m + 1 := ⟨more - 1, by omega⟩
    rw [locateFrom] at hn ⊢
    split at hn
    · exact hn
    · cases hn
    · exact ih (by omega) hn

theorem split (h : Finds root links p (steps ++ more) q) :
    ∃ r left, left ≤ links ∧ Finds root links p steps r ∧ Finds root left r more q := by
  by_cases hmore : more = []
  · subst hmore
    rw [List.append_nil] at h
    obtain ⟨n, hn⟩ := h
    have hend : descend root q [] = .found (.node q n) := by rw [descend, at?_of_locateFrom hn]
    exact ⟨q, links, le_rfl, ⟨n, hn⟩, n, locateFrom_of_found hend⟩
  · obtain ⟨n, hn⟩ := h
    induction links using Nat.strong_induction_on generalizing p steps with
    | _ links ih =>
      have hall : descend root p (steps ++ more) = (descend root p steps).onward root more :=
        descend_append hmore
      cases hd : descend root p steps with
      | found f =>
        rw [hd] at hall
        cases f with
        | node r m =>
          exact ⟨r, links, le_rfl, ⟨m, locateFrom_of_found hd⟩, n,
            hn ▸ (locateFrom_congr hall).symm⟩
        | vacant directory name =>
          rw [locateFrom_of_fault hall] at hn
          cases hn
      | fault f =>
        rw [hd] at hall
        rw [locateFrom_of_fault hall] at hn
        cases hn
      | link directory target rest =>
        cases links with
        | zero =>
          rw [locateFrom, hall, hd] at hn
          cases hn
        | succ links =>
          rw [locateFrom, hall, hd] at hn
          simp only [Stop.onward, ← List.append_assoc] at hn
          obtain ⟨r, left, hleft, ⟨m, hm⟩, hr⟩ := ih links (by omega) hn
          refine ⟨r, left, by omega, ⟨m, ?_⟩, hr⟩
          rw [locateFrom, hd]
          exact hm

theorem without_idle {step : String} (hstep : ¬ Path.matters step = true)
    (h : Finds root links p (steps ++ step :: more) q) : Finds root links p (steps ++ more) q := by
  obtain ⟨r, fewer, -, ⟨m, hm⟩, hq⟩ := h.split
  by_cases hmore : more = []
  · subst hmore
    obtain rfl := (hq.idle hstep).nil
    exact ⟨m, by rwa [List.append_nil]⟩
  · obtain ⟨left, hleft⟩ := locateFrom_append hm
    obtain ⟨n, hn⟩ := h
    rw [hleft (by simp)] at hn
    have hq : Finds root left r (step :: more) q := ⟨n, hn⟩
    obtain ⟨n', hn'⟩ := hq.idle hstep
    exact ⟨n', (hleft hmore).trans hn'⟩

theorem filter_matters (h : Finds root links p (steps ++ more) q) :
    Finds root links p (steps ++ more.filter Path.matters) q := by
  induction more generalizing steps with
  | nil => exact h
  | cons step more ih =>
    by_cases hstep : Path.matters step = true
    · rw [List.filter_cons_of_pos hstep, List.append_cons]
      exact ih (List.append_cons .. ▸ h)
    · rw [List.filter_cons_of_neg hstep]
      exact ih (h.without_idle hstep)

theorem names (h : Finds root links p (Path.steps path) q) :
    Finds root links p (Path.names path) q := by
  have hfree : Finds root links p ([] ++ (Path.steps path).filter Path.matters) q :=
    h.filter_matters
  rwa [Path.filter_steps] at hfree

end Finds

def spellings (here : Location) : List Spelling :=
  .fromTop :: (List.range (here.length + 1)).map .fromHere

/-- The place that a path spelled so has come to is one that the system gets to by it: it can search
every directory on the way. -/
def Walked (root : Node) (here p : Location) : Spelling → Prop
  | .fromTop => ∀ r, r <+: p → r ≠ p → root.searchableAt r = true
  | .fromHere up => up ≤ here.length ∧ here.take (here.length - up) <+: p ∧
    (∀ r, r <+: here → here.length - up < r.length → root.searchableAt r = true) ∧
    ∀ r, r <+: p → r ≠ p → here.length - up ≤ r.length → root.searchableAt r = true

namespace Walked

theorem top : Walked root here [] .fromTop := fun _ hr hne => absurd (List.prefix_nil.1 hr) hne

theorem start : Walked root here here (.fromHere 0) := by
  refine ⟨Nat.zero_le _, by simp, fun _ hr hlt => ?_, fun _ hr hne hle => ?_⟩
  · exact absurd hr.length_le (by omega)
  · exact absurd (hr.eq_of_length_le (by omega)) hne

theorem canLook (h : Walked root here p s) (hp : root.searchableAt p = true) :
    canLook root here p s = true := by
  have hlast {r : Location} (h : r ≠ p → root.searchableAt r = true) : root.searchableAt r = true := by
    by_cases hr : r = p
    · exact hr ▸ hp
    · exact h hr
  cases s with
  | fromTop => exact wayIsOpen_iff.2 fun r hr _ => hlast (h r hr)
  | fromHere up =>
    obtain ⟨hup, -, hhere, hplace⟩ := h
    refine Bool.and_eq_true_iff.2 ⟨wayIsOpen_iff.2 fun r hr hle => hhere r hr (by omega), ?_⟩
    exact wayIsOpen_iff.2 fun r hr hle => hlast fun hne => hplace r hr hne hle

theorem goUp (h : Walked root here p s) (hp : root.searchableAt p = true) :
    Walked root here p.dropLast (goUp here p s) := by
  have hbefore {r : Location} (hr : r <+: p.dropLast) (hne : r ≠ p.dropLast) : r <+: p ∧ r ≠ p := by
    refine ⟨hr.trans (List.dropLast_prefix p), ?_⟩
    rintro rfl
    exact hne (hr.eq_of_length_le (by simp)).symm.symm
  cases s with
  | fromTop => exact fun r hr hne => h r (hbefore hr hne).1 (hbefore hr hne).2
  | fromHere up =>
    obtain ⟨hup, hbase, hhere, hplace⟩ := h
    have hlength := hbase.length_le
    rw [List.length_take] at hlength
    rw [Disk.goUp]
    split
    · next hle =>
      have hsame : p = here.take (here.length - up) :=
        (hbase.eq_of_length_le (by rw [List.length_take]; omega)).symm
      refine ⟨Nat.min_le_left _ _, ?_, fun r hr hlt => ?_, fun r hr hne hle' => ?_⟩
      · rw [hsame, List.dropLast_eq_take, List.take_take, List.length_take]
        refine List.take_prefix_take_left ?_
        omega
      · by_cases hbelow : here.length - up < r.length
        · exact hhere r hr hbelow
        · have hr : r = p := by
            rw [hsame, List.prefix_iff_eq_take.1 hr]
            congr 1
            omega
          exact hr ▸ hp
      · have hlt := hr.length_le
        rw [List.length_dropLast] at hlt
        exact absurd (hr.eq_of_length_le (by rw [List.length_dropLast]; omega)) hne
    · next hlt =>
      refine ⟨hup, ?_, hhere, fun r hr hne => hplace r (hbefore hr hne).1 (hbefore hr hne).2⟩
      refine List.prefix_of_prefix_length_le hbase (List.dropLast_prefix p) ?_
      rw [List.length_take, List.length_dropLast]
      omega

end Walked

/-- Links that are being resolved, none of which leads anywhere if it is followed by way of fewer
links than are left, and room for those that are not among them. -/
structure Opened (root : Node) (here : Location) (depth : Nat) (opened : List (Location × Spelling))
    (links : Nat) : Prop where
  nodup : opened.Nodup
  places : ∀ e ∈ opened, e.1 ∈ root.linkPlaces ∧ e.2 ∈ spellings here
  room : root.linkCount * (here.length + 2) ≤ depth + opened.length
  endless : ∀ e ∈ opened, ∀ target, root.at? e.1 = some (.link target) → ∀ left < links, ∀ q,
    ¬ Finds root left (startOf e.1.dropLast target) (Path.names target) q

namespace Opened

variable {depth : Nat} {opened : List (Location × Spelling)} {target : String}

theorem cons (h : Opened root here (depth + 1) opened links)
    (hat : root.at? p = some (.link target)) (hs : s ∈ spellings here) (hmem : (p, s) ∉ opened)
    {least : Nat} (hle : least ≤ links)
    (hleast : ∀ left < least, ∀ q,
      ¬ Finds root left (startOf p.dropLast target) (Path.names target) q) :
    Opened root here depth ((p, s) :: opened) least := by
  refine ⟨List.nodup_cons.2 ⟨hmem, h.nodup⟩, fun e he => ?_, ?_, fun e he target' hat' => ?_⟩
  · rcases List.mem_cons.1 he with rfl | he
    · exact ⟨Node.mem_linkPlaces hat, hs⟩
    · exact h.places e he
  · have hroom := h.room
    rw [List.length_cons]
    omega
  · rcases List.mem_cons.1 he with rfl | he
    · obtain rfl := Node.link.inj (Option.some.inj (hat.symm.trans hat'))
      exact hleast
    · exact fun left hleft => h.endless e he target' hat' left (by omega)

end Opened

end Disk

end LeakScan
