import LeakScan.Proofs.Disk.Below
import LeakScan.Proofs.Walk.Order

namespace LeakScan

variable {p q : Location}

theorem relativeText_ne_nil (hp : p ≠ []) : relativeText p = "/".intercalate p := by
  cases p with
  | nil => exact absurd rfl hp
  | cons name p => rfl

theorem relativeText_append (hp : p ≠ []) (hq : q ≠ []) :
    relativeText (p ++ q) = relativeText p ++ "/" ++ relativeText q := by
  rw [relativeText_ne_nil hp, relativeText_ne_nil hq, relativeText_ne_nil (by simp [hp]),
    String.intercalate_append_of_ne_nil hp hq]

theorem relativeText_ne_dot (hq : ∀ c ∈ q, Node.IsName c) (hne : q ≠ []) : relativeText q ≠ "." := by
  intro h
  have hnames := names_relativeText hq
  rw [h] at hnames
  exact hne (hnames.symm.trans (by decide))

/-- The text of a place that is shown below another one. -/
def textUnder (p : Location) (text : String) : String :=
  if text = "." then relativeText p else relativeText p ++ "/" ++ text

theorem textUnder_dot : textUnder p "." = relativeText p := if_pos rfl

theorem textUnder_of_ne {text : String} (h : text ≠ ".") :
    textUnder p text = relativeText p ++ "/" ++ text := if_neg h

theorem textUnder_relativeText (hp : p ≠ []) (hq : ∀ c ∈ q, Node.IsName c) :
    textUnder p (relativeText q) = relativeText (p ++ q) := by
  by_cases hne : q = []
  · subst hne
    rw [List.append_nil]
    exact textUnder_dot
  · rw [textUnder_of_ne (relativeText_ne_dot hq hne), relativeText_append hp hne]

theorem slash_append_ne_dot (a b : String) : a ++ "/" ++ b ≠ "." := by
  intro h
  have hslash : '/' ∈ (a ++ "/" ++ b).toList := by simp [String.toList_append]
  rw [h] at hslash
  exact absurd hslash (by decide)

theorem textUnder_textUnder (hp : p ≠ []) (hq : q ≠ []) (hqn : ∀ c ∈ q, Node.IsName c)
    (text : String) : textUnder p (textUnder q text) = textUnder (p ++ q) text := by
  have happend := relativeText_append hp hq
  by_cases hdot : text = "."
  · subst hdot
    rw [textUnder_dot, textUnder_dot, textUnder_of_ne (relativeText_ne_dot hqn hq), happend]
  · rw [textUnder_of_ne hdot, textUnder_of_ne hdot, textUnder_of_ne (slash_append_ne_dot _ _),
      happend]
    simp [String.append_assoc]

/-- Whether a text shows a place that is strictly below `p`. -/
def isBelow (p : Location) (text : String) : Bool :=
  (relativeText p ++ "/").toList.isPrefixOf text.toList

theorem isBelow_relativeText (hp : p ≠ []) (hpn : ∀ c ∈ p, Node.IsName c)
    (hqn : ∀ c ∈ q, Node.IsName c) : isBelow p (relativeText q) = true ↔ p <+: q ∧ q ≠ p := by
  rw [isBelow, List.isPrefixOf_iff_prefix]
  constructor
  · rintro ⟨tail, htail⟩
    have htext : relativeText q = relativeText p ++ "/" ++ String.ofList tail := by
      rw [← String.toList_inj, String.toList_append, String.toList_ofList, htail]
    refine ⟨⟨Path.names (String.ofList tail), ?_⟩, ?_⟩
    · rw [← names_relativeText hqn, htext, Path.names_append_slash, names_relativeText hpn]
    · rintro rfl
      have hlength := congrArg List.length htail
      simp [String.toList_append] at hlength
  · rintro ⟨⟨r, rfl⟩, hne⟩
    have hr : r ≠ [] := by
      rintro rfl
      exact hne (List.append_nil p)
    rw [relativeText_append hp hr, String.toList_append (s := relativeText p ++ "/")]
    exact List.prefix_append _ _

def Document.under (p : Location) (d : Document) : Document :=
  { d with path := relativeText p ++ "/" ++ d.path }

theorem documentAt_under {disk : Disk} {path : String} (hp : p ≠ []) (hq : q ≠ []) :
    documentAt disk path (p ++ q) = (documentAt disk path q).under p := by
  unfold documentAt Document.under
  split
  · simp [relativeText_append hp hq]
  · split <;> simp [relativeText_append hp hq]

namespace Visit

def under (p : Location) : Visit → Visit
  | document path d => document path (d.under p)
  | unlisted path relative e => unlisted path (textUnder p relative) e

structure At (v : Visit) (q : Location) : Prop where
  names : ∀ c ∈ q, Node.IsName c
  relative : v.relative = relativeText q
  ne_nil : ∀ d, v.document? = some d → q ≠ []

theorem At.place {v : Visit} (h : v.At q) : Path.names v.relative = q := by
  rw [h.relative, names_relativeText h.names]

theorem At.under {v : Visit} (h : v.At q) (hp : p ≠ []) (hpn : ∀ c ∈ p, Node.IsName c) :
    (v.under p).At (p ++ q) where
  names c hc := (List.mem_append.1 hc).elim (hpn c) (h.names c)
  relative := by
    cases v with
    | document path d =>
      have hpath : d.path = relativeText q := h.relative
      rw [relativeText_append hp (h.ne_nil d rfl), ← hpath]
      rfl
    | unlisted path relative e =>
      have hrelative : relative = relativeText q := h.relative
      rw [← textUnder_relativeText hp h.names, ← hrelative]
      rfl
  ne_nil _ _ := by simp [hp]

theorem under_under (v : Visit) (hp : p ≠ []) (hq : q ≠ []) (hqn : ∀ c ∈ q, Node.IsName c) :
    (v.under q).under p = v.under (p ++ q) := by
  cases v with
  | document path d =>
    simp [under, Document.under, relativeText_append hp hq, String.append_assoc]
  | unlisted path relative e =>
    exact congrArg (fun text => unlisted path text e) (textUnder_textUnder hp hq hqn relative)

end Visit

namespace Walk

/-- The same walk, with all that it meets shown below a place. -/
def under (p : Location) (w : Walk) : Walk := { w with visits := w.visits.map (Visit.under p) }

variable {disk : Disk} {skips : Config.Skips} {searchable : Bool} {name listed path : String}
  {n : Node}

theorem append_under (a b : Walk) : (a.append b).under p = (a.under p).append (b.under p) := by
  unfold append under
  cases a.stopped with
  | some e => rfl
  | none => simp

theorem inOrder_under (entries : List (String × Walk)) :
    (inOrder entries).under p = inOrder (entries.map fun e => (e.1, e.2.under p)) := by
  rw [inOrder, inOrder_map]
  induction entries.mergeSort fun a b => a.1 ≤ b.1 with
  | nil => rfl
  | cons e es ih => rw [List.foldr_cons, append_under, ih, List.foldr_cons]

theorem walkFile_under (hp : p ≠ []) (hq : q ≠ []) :
    walkFile disk skips name path (p ++ q) = (walkFile disk skips name path q).under p := by
  unfold walkFile
  split
  · rfl
  · rw [documentAt_under hp hq]
    rfl

theorem walkEntry_under (hp : p ≠ []) (hn : n.WellFormed) (hq : q ≠ [])
    (hqn : ∀ c ∈ q, Node.IsName c) :
    walkEntry disk skips searchable name listed path (p ++ q) n =
      (walkEntry disk skips searchable name listed path q n).under p := by
  induction hn generalizing searchable name listed path q with
  | file bytes access =>
    rw [walkEntry, walkEntry]
    exact walkFile_under hp hq
  | @directory entries access nodup names below ih =>
    rw [walkEntry, walkEntry]
    split
    · rfl
    · split
      · rw [← textUnder_relativeText hp hqn]
        rfl
      · rw [walkEntries_eq_map, walkEntries_eq_map, inOrder_under, List.map_map]
        congr 1
        refine List.map_congr_left fun e he => ?_
        have hname := names e he
        rw [List.append_assoc, ih e he (by simp) fun c hc => ?_]
        · rfl
        · rcases List.mem_append.1 hc with hc | hc
          · exact hqn c hc
          · exact List.mem_singleton.1 hc ▸ hname
  | link target =>
    rw [walkEntry, walkEntry]
    split
    · rfl
    · rfl
    · exact walkFile_under hp hq
  | pipe =>
    rw [walkEntry, walkEntry]
    rfl

theorem walkEntry_directory {inner : List (String × Node)} {access : Access} (hp : p ≠ [])
    (hkept : name ∉ skips.dirs) (hwf : Node.WellFormed (.directory inner access))
    (hnode : disk.node path = if Disk.pathLimit < path.utf8ByteSize then .error .nameTooLong
      else if !searchable then .error .denied else .ok (.directory inner access)) :
    walkEntry disk skips searchable name listed path p (.directory inner access) =
      (walk disk skips path).under p := by
  have hunlisted (f : PathFault) : visit (.unlisted path (relativeText p) ⟨f, path⟩) =
      (visit (.unlisted path (relativeText []) ⟨f, path⟩)).under p :=
    congrArg (fun text => visit (.unlisted path text _)) textUnder_dot.symm
  rw [walkEntry, if_neg hkept, listingFault?, walk, hnode]
  by_cases hsize : Disk.pathLimit < path.utf8ByteSize
  · rw [if_pos hsize, if_pos hsize]
    exact hunlisted .nameTooLong
  · rw [if_neg hsize, if_neg hsize]
    cases searchable with
    | false => exact hunlisted .denied
    | true =>
      cases hread : access.read with
      | false =>
        simp only [Bool.not_true, Bool.false_eq_true, if_false, Bool.and_false, hread]
        exact hunlisted .denied
      | true =>
        simp only [Bool.not_true, Bool.false_eq_true, if_false, Bool.and_self, if_true, hread]
        rw [walkEntries_eq_map, walkEntries_eq_map, inOrder_under, List.map_map]
        congr 1
        refine List.map_congr_left fun e he => ?_
        rw [walkEntry_under hp (hwf.entry he) (by simp) (by simpa using hwf.isName he)]
        rfl

end Walk

end LeakScan
