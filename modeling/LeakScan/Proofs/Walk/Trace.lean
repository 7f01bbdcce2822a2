import LeakScan.Scan.Walk
import Mathlib.Data.List.Nodup

namespace LeakScan

abbrev Step := Except PathError Visit

namespace Walk

def ofSteps : List Step → Walk
  | [] => nothing
  | .ok v :: steps => (visit v).append (ofSteps steps)
  | .error e :: _ => stop e

theorem append_assoc (a b c : Walk) : (a.append b).append c = a.append (b.append c) := by
  rcases a with ⟨va, _ | e⟩
  · rcases b with ⟨vb, _ | e⟩ <;> simp [append]
  · simp [append]

theorem ofSteps_append (as bs : List Step) :
    ofSteps (as ++ bs) = (ofSteps as).append (ofSteps bs) := by
  induction as with
  | nil => rfl
  | cons s as ih =>
    cases s with
    | ok v => simp only [List.cons_append, ofSteps, ih, append_assoc]
    | error e => rfl

theorem steps_of_completed {steps : List Step} (h : (ofSteps steps).stopped = none) :
    steps = (ofSteps steps).visits.map .ok := by
  induction steps with
  | nil => rfl
  | cons s steps ih =>
    cases s with
    | ok v => exact congrArg (.ok v :: ·) (ih h)
    | error e => simp [ofSteps, stop] at h

theorem steps_of_stopped {steps : List Step} {e : PathError}
    (h : (ofSteps steps).stopped = some e) :
    ∃ rest : List Step, steps = (ofSteps steps).visits.map .ok ++ .error e :: rest := by
  induction steps with
  | nil => simp [ofSteps, nothing] at h
  | cons s steps ih =>
    cases s with
    | ok v =>
      obtain ⟨rest, hsteps⟩ := ih h
      exact ⟨rest, congrArg (.ok v :: ·) hsteps⟩
    | error e' =>
      have he : e' = e := Option.some.inj h
      exact ⟨steps, by rw [he]; rfl⟩

theorem completed_iff {steps : List Step} :
    (ofSteps steps).stopped = none ↔ ∀ e, .error e ∉ steps := by
  constructor
  · intro h e he
    rw [steps_of_completed h] at he
    simp at he
  · intro h
    induction steps with
    | nil => rfl
    | cons s steps ih =>
      cases s with
      | ok v => exact ih fun e he => h e (List.mem_cons_of_mem _ he)
      | error e => exact absurd List.mem_cons_self (h e)

/-- The steps of a walk, given by what can happen at each place: every possible step is taken, in
the order of the places. -/
def Traces (R : Location → Step → Prop) (w : Walk) : Prop :=
  ∃ events : List (Location × Step), (events.map (·.1)).Pairwise (· < ·) ∧
    (∀ q s, (q, s) ∈ events ↔ R q s) ∧ w = ofSteps (events.map (·.2))

variable {R S : Location → Step → Prop} {w : Walk}

theorem Traces.congr (h : Traces R w) (hRS : ∀ q s, R q s ↔ S q s) : Traces S w := by
  obtain ⟨events, hsorted, hmem, hw⟩ := h
  exact ⟨events, hsorted, fun q s => (hmem q s).trans (hRS q s), hw⟩

theorem Traces.not_stopped_iff (h : Traces R w) :
    w.stopped = none ↔ ∀ q e, ¬ R q (.error e) := by
  obtain ⟨events, -, hmem, rfl⟩ := h
  rw [completed_iff]
  constructor
  · intro h q e hq
    exact h e (List.mem_map.2 ⟨(q, .error e), (hmem q _).2 hq, rfl⟩)
  · intro h e he
    obtain ⟨⟨q, s⟩, hqs, rfl⟩ := List.mem_map.1 he
    exact h q e ((hmem q _).1 hqs)

theorem Traces.first_error {e : PathError} (h : Traces R w)
    (hstop : w.stopped = some e) :
    ∃ p, R p (.error e) ∧ ∀ q e', R q (.error e') → ¬ q < p := by
  obtain ⟨events, hsorted, hmem, rfl⟩ := h
  obtain ⟨rest, hsteps⟩ := steps_of_stopped hstop
  obtain ⟨before, tail, hevents, hbefore, htail⟩ := List.map_eq_append_iff.1 hsteps
  obtain ⟨⟨p, s⟩, after, rfl, hs, -⟩ := List.map_eq_cons_iff.1 htail
  have hs : s = .error e := hs
  subst hs
  refine ⟨p, (hmem p _).1 (by simp [hevents]), fun q e' hR hlt => ?_⟩
  have hq := (hmem q _).2 hR
  rw [hevents, List.mem_append, List.mem_cons] at hq
  rcases hq with hq | hq | hq
  · have hstep : (.error e' : Step) ∈ before.map (·.2) := List.mem_map.2 ⟨_, hq, rfl⟩
    rw [hbefore] at hstep
    simp at hstep
  · rw [(Prod.mk.inj hq).1] at hlt
    exact List.lt_irrefl p hlt
  · rw [hevents, List.map_append, List.map_cons] at hsorted
    have hafter := (List.pairwise_cons.1 (List.pairwise_append.1 hsorted).2.1).1
    exact List.lt_asymm hlt (hafter q (List.mem_map.2 ⟨_, hq, rfl⟩))

theorem exists_met {events : List (Location × Step)} {visits : List Visit}
    (h : events.map (·.2) = visits.map .ok) :
    ∃ met : List (Location × Visit), events = met.map (fun e => (e.1, .ok e.2)) ∧
      met.map (·.2) = visits := by
  induction visits generalizing events with
  | nil => exact ⟨[], List.map_eq_nil_iff.1 h, rfl⟩
  | cons v visits ih =>
    obtain ⟨⟨q, s⟩, events, rfl, hs, hevents⟩ := List.map_eq_cons_iff.1 h
    obtain rfl : s = .ok v := hs
    obtain ⟨met, rfl, rfl⟩ := ih hevents
    exact ⟨(q, v) :: met, rfl, rfl⟩

/-- What a walk has met, stopped or not, comes from possible steps in the order of their places. A
walk that is not stopped has met all there is. -/
theorem Traces.visited (h : Traces R w) :
    ∃ met : List (Location × Visit), (met.map (·.1)).Pairwise (· < ·) ∧
      (∀ q v, (q, v) ∈ met → R q (.ok v)) ∧
      (w.stopped = none → ∀ q v, R q (.ok v) → (q, v) ∈ met) ∧ w.visits = met.map (·.2) := by
  obtain ⟨events, hsorted, hmem, rfl⟩ := h
  cases hstop : (ofSteps (events.map (·.2))).stopped with
  | none =>
    obtain ⟨met, rfl, hmet⟩ := exists_met (steps_of_completed hstop)
    rw [List.map_map] at hsorted
    refine ⟨met, hsorted, fun q v hqv => ?_, fun _ q v hR => ?_, hmet.symm⟩
    · exact (hmem q _).1 (List.mem_map.2 ⟨_, hqv, rfl⟩)
    · obtain ⟨⟨q', v'⟩, hqv, heq⟩ := List.mem_map.1 ((hmem q _).2 hR)
      cases heq
      exact hqv
  | some e =>
    obtain ⟨rest, hsteps⟩ := steps_of_stopped hstop
    obtain ⟨before, tail, rfl, hbefore, -⟩ := List.map_eq_append_iff.1 hsteps
    obtain ⟨met, rfl, hmet⟩ := exists_met hbefore
    rw [List.map_append, List.map_map] at hsorted
    refine ⟨met, (List.pairwise_append.1 hsorted).1, fun q v hqv => ?_, fun hnone => ?_, hmet.symm⟩
    · exact (hmem q _).1 (List.mem_append_left _ (List.mem_map.2 ⟨_, hqv, rfl⟩))
    · simp at hnone

theorem Traces.unique {w' : Walk} (h : Traces R w) (h' : Traces R w') : w = w' := by
  obtain ⟨events, hsorted, hmem, rfl⟩ := h
  obtain ⟨events', hsorted', hmem', rfl⟩ := h'
  have hperm : events.Perm events' :=
    (List.perm_ext_iff_of_nodup (.of_map _ hsorted.nodup) (.of_map _ hsorted'.nodup)).2
      fun ⟨q, s⟩ => (hmem q s).trans (hmem' q s).symm
  rw [List.pairwise_map] at hsorted hsorted'
  have heq : events = events' :=
    hperm.eq_of_pairwise (fun a b _ _ hab hba => absurd hba (List.lt_asymm hab)) hsorted hsorted'
  rw [heq]

theorem filterMap_eq_map {α β γ : Type} {events : List (α × β)} {g : β → Option γ} {f : α → γ}
    (h : ∀ e ∈ events, ∀ y, g e.2 = some y → y = f e.1) :
    (events.map (·.2)).filterMap g =
      ((events.filter fun e => (g e.2).isSome).map (·.1)).map f := by
  induction events with
  | nil => rfl
  | cons e events ih =>
    have ih := ih fun d hd => h d (List.mem_cons_of_mem _ hd)
    cases hg : g e.2 with
    | none => simpa [hg] using ih
    | some y =>
      have hy := h e List.mem_cons_self y hg
      simpa [hg, hy] using ih

theorem Traces.take {γ : Type} (h : Traces R w) {g : Visit → Option γ} {f : Location → γ}
    (hg : ∀ q v y, R q (.ok v) → g v = some y → y = f q) :
    ∃ places : List Location, places.Pairwise (· < ·) ∧
      (∀ q ∈ places, ∃ v, R q (.ok v) ∧ (g v).isSome = true) ∧
      (w.stopped = none → ∀ q v, R q (.ok v) → (g v).isSome = true → q ∈ places) ∧
      w.visits.filterMap g = places.map f := by
  obtain ⟨met, hsorted, hR, hall, hvisits⟩ := h.visited
  refine ⟨(met.filter fun e => (g e.2).isSome).map (·.1), ?_, ?_, ?_, ?_⟩
  · rw [List.pairwise_map] at hsorted ⊢
    exact hsorted.sublist List.filter_sublist
  · intro q hq
    obtain ⟨⟨q, v⟩, hqv, rfl⟩ := List.mem_map.1 hq
    obtain ⟨hin, hsome⟩ := List.mem_filter.1 hqv
    exact ⟨v, hR q v hin, hsome⟩
  · intro hdone q v hqv hsome
    exact List.mem_map.2 ⟨(q, v), List.mem_filter.2 ⟨hall hdone q v hqv, hsome⟩, rfl⟩
  · rw [hvisits]
    exact filterMap_eq_map fun e he y hy => hg e.1 e.2 y (hR _ _ he) hy

theorem Traces.select {γ : Type} (h : Traces R w) (hdone : w.stopped = none)
    {g : Visit → Option γ} {f : Location → γ}
    (hg : ∀ q v y, R q (.ok v) → g v = some y → y = f q) :
    ∃ places : List Location, places.Pairwise (· < ·) ∧
      (∀ q, q ∈ places ↔ ∃ v, R q (.ok v) ∧ (g v).isSome = true) ∧
      w.visits.filterMap g = places.map f := by
  obtain ⟨places, hsorted, hpossible, hall, heq⟩ := h.take hg
  refine ⟨places, hsorted, fun q => ⟨hpossible q, ?_⟩, heq⟩
  rintro ⟨v, hqv, hsome⟩
  exact hall hdone q v hqv hsome

theorem traces_nothing (h : ∀ q s, ¬ R q s) : Traces R nothing :=
  ⟨[], .nil, fun q s => by simpa using h q s, rfl⟩

theorem traces_visit {v : Visit} (h : ∀ q s, R q s ↔ q = [] ∧ .ok v = s) : Traces R (visit v) :=
  ⟨[([], .ok v)], by simp, fun q s => by simp [h, eq_comm], rfl⟩

theorem traces_stop {e : PathError} (h : ∀ q s, R q s ↔ q = [] ∧ .error e = s) :
    Traces R (stop e) :=
  ⟨[([], .error e)], by simp, fun q s => by simp [h, eq_comm], rfl⟩

section InOrder

variable {α : Type} {name : α → String} {walkOf : α → Walk} {Q : α → Location → Step → Prop}

def AtEntry (items : List α) (name : α → String) (Q : α → Location → Step → Prop) (q : Location)
    (s : Step) : Prop :=
  ∃ a ∈ items, ∃ r, q = name a :: r ∧ Q a r s

theorem traces_foldr {items : List α} (hsorted : items.Pairwise fun a b => name a < name b)
    (h : ∀ a ∈ items, Traces (Q a) (walkOf a)) :
    Traces (AtEntry items name Q)
      (items.foldr (fun a rest => (walkOf a).append rest) nothing) := by
  induction items with
  | nil => exact traces_nothing fun q s => by simp [AtEntry]
  | cons a items ih =>
    obtain ⟨hfirst, hrest⟩ := List.pairwise_cons.1 hsorted
    obtain ⟨here, hhere, hmemHere, hwalkHere⟩ := h a List.mem_cons_self
    obtain ⟨later, hlater, hmemLater, hwalkLater⟩ :=
      ih hrest fun b hb => h b (List.mem_cons_of_mem _ hb)
    refine ⟨here.map (fun e => (name a :: e.1, e.2)) ++ later, ?_, ?_, ?_⟩
    · rw [List.map_append, List.map_map]
      refine List.pairwise_append.2 ⟨?_, hlater, ?_⟩
      · rw [List.pairwise_map] at hhere ⊢
        exact hhere.imp fun hlt => List.cons_lt_cons_iff.2 (.inr ⟨rfl, hlt⟩)
      · -- Names decide between places below different entries.
        intro p hp q hq
        obtain ⟨e, -, rfl⟩ := List.mem_map.1 hp
        obtain ⟨⟨q, s⟩, hqs, rfl⟩ := List.mem_map.1 hq
        obtain ⟨b, hb, r, rfl, -⟩ := (hmemLater q s).1 hqs
        exact List.cons_lt_cons_iff.2 (.inl (hfirst b hb))
    · intro q s
      rw [List.mem_append, hmemLater]
      constructor
      · rintro (hq | ⟨b, hb, r, rfl, hQ⟩)
        · obtain ⟨⟨r, t⟩, hrt, heq⟩ := List.mem_map.1 hq
          obtain ⟨rfl, rfl⟩ := Prod.mk.inj heq
          exact ⟨a, List.mem_cons_self, r, rfl, (hmemHere r t).1 hrt⟩
        · exact ⟨b, List.mem_cons_of_mem _ hb, r, rfl, hQ⟩
      · rintro ⟨b, hb, r, rfl, hQ⟩
        rcases List.mem_cons.1 hb with rfl | hb
        · exact .inl (List.mem_map.2 ⟨(r, s), (hmemHere r s).2 hQ, rfl⟩)
        · exact .inr ⟨b, hb, r, rfl, hQ⟩
    · rw [List.foldr_cons, hwalkHere, hwalkLater, List.map_append, List.map_map, ← ofSteps_append]
      rfl

theorem pairwise_sorted {items : List α} (hnodup : (items.map name).Nodup) :
    (items.mergeSort fun a b => name a ≤ name b).Pairwise fun a b => name a < name b := by
  have hle : (items.mergeSort fun a b => name a ≤ name b).Pairwise
      fun a b => decide (name a ≤ name b) = true :=
    List.pairwise_mergeSort
      (fun a b c hab hbc => by
        simp only [decide_eq_true_eq] at hab hbc ⊢
        exact String.le_trans hab hbc)
      (fun a b => by simpa using String.le_total (name a) (name b)) items
  have hne : ((items.mergeSort fun a b => name a ≤ name b).map name).Nodup :=
    ((List.mergeSort_perm items _).map name).nodup_iff.2 hnodup
  rw [List.Nodup, List.pairwise_map] at hne
  refine (hle.and hne).imp ?_
  rintro a b ⟨hab, hab'⟩
  exact Std.lt_of_le_of_ne (of_decide_eq_true hab) hab'

theorem inOrder_map (items : List α) :
    inOrder (items.map fun a => (name a, walkOf a)) =
      (items.mergeSort fun a b => name a ≤ name b).foldr
        (fun a rest => (walkOf a).append rest) nothing := by
  have hsort : (items.map fun a => (name a, walkOf a)).mergeSort (fun a b => a.1 ≤ b.1) =
      (items.mergeSort fun a b => name a ≤ name b).map fun a => (name a, walkOf a) :=
    (List.map_mergeSort (r := fun a b => name a ≤ name b) (f := fun a => (name a, walkOf a))
      fun _ _ _ _ => rfl).symm
  rw [inOrder, hsort, List.foldr_map]

theorem traces_inOrder {items : List α} (hnodup : (items.map name).Nodup)
    (h : ∀ a ∈ items, Traces (Q a) (walkOf a)) :
    Traces (AtEntry items name Q) (inOrder (items.map fun a => (name a, walkOf a))) := by
  rw [inOrder_map]
  have hmem (a : α) : (a ∈ items.mergeSort fun a b => name a ≤ name b) ↔ a ∈ items :=
    List.mem_mergeSort
  refine (traces_foldr (pairwise_sorted hnodup) fun a ha => h a ((hmem a).1 ha)).congr
    fun q s => ?_
  simp only [AtEntry, hmem]

end InOrder

end Walk

end LeakScan
