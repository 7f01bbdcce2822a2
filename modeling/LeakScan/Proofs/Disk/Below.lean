import LeakScan.Proofs.Disk.Follow
import LeakScan.Proofs.Disk.Names
import Mathlib.Data.List.Basic

namespace LeakScan

namespace Path

variable {directory name : String} {a b : List Char}

theorem piecesChars_ne_nil (a : List Char) : piecesChars a ≠ [] := by
  rw [piecesChars_eq_splitOn]
  exact List.splitOnP_ne_nil _ _

theorem piecesChars_of_no_slash (hb : '/' ∉ b) : piecesChars b = [b] := by
  induction b with
  | nil => rfl
  | cons c b ih =>
    simp only [List.mem_cons, not_or] at hb
    rw [piecesChars, if_neg (Ne.symm hb.1), ih hb.2]

theorem piecesChars_append (a b : List Char) :
    piecesChars (a ++ '/' :: b) = piecesChars a ++ piecesChars b := by
  induction a with
  | nil => simp [piecesChars]
  | cons c a ih =>
    obtain ⟨p, ps, hp⟩ := List.exists_cons_of_ne_nil (piecesChars_ne_nil a)
    rw [List.cons_append, piecesChars, piecesChars, ih, hp]
    split <;> rfl

theorem names_append_slash (a b : String) : names (a ++ "/" ++ b) = names a ++ names b := by
  have hchars : (a ++ "/" ++ b).toList = a.toList ++ '/' :: b.toList := by
    simp [String.toList_append]
  simp [names, pieces, hchars, piecesChars_append]

def solid (path : String) : List String := (pieces path).filter (· != "")

theorem steps_eq (path : String) :
    steps path = solid path ∨ steps path = solid path ++ [""] := by
  unfold steps
  simp only
  split
  · exact .inr rfl
  · exact .inl rfl

theorem listed_eq_append (directory name : String) :
    ∃ tail, listed directory name = directory ++ tail := by
  unfold listed
  split
  · exact ⟨name, rfl⟩
  · exact ⟨"/" ++ name, String.append_assoc⟩

theorem isAbsolute_append (hne : directory ≠ "") (tail : String) :
    isAbsolute (directory ++ tail) = isAbsolute directory := by
  have hhead : directory.toList ≠ [] := by simpa using hne
  rw [isAbsolute, isAbsolute, String.toList_append, List.head?_append_of_ne_nil _ hhead]

theorem ne_empty_of_isAbsolute (h : isAbsolute directory = true) : directory ≠ "" := by
  rintro rfl
  simp [isAbsolute] at h

theorem below_of_isAbsolute (h : isAbsolute directory = true) (name : String) :
    below directory name = listed directory name := by
  rw [below, if_neg]
  rintro rfl
  simp [isAbsolute] at h

theorem isAbsolute_below (h : isAbsolute directory = true) (name : String) :
    isAbsolute (below directory name) = true := by
  obtain ⟨tail, htail⟩ := listed_eq_append directory name
  rw [below_of_isAbsolute h, htail, isAbsolute_append (ne_empty_of_isAbsolute h), h]

theorem solid_append_slash (hname : Node.IsName name) (path : String) :
    solid (path ++ "/" ++ name) = solid path ++ [name] := by
  have hchars : (path ++ "/" ++ name).toList = path.toList ++ '/' :: name.toList := by
    simp [String.toList_append]
  simp [solid, pieces, hchars, piecesChars_append, piecesChars_of_no_slash hname.no_slash,
    hname.ne_empty]

theorem solid_listed (hname : Node.IsName name) (directory : String) :
    solid (listed directory name) = solid directory ++ [name] := by
  unfold listed
  split
  · next hlast =>
    -- A slash at the end only adds an empty piece.
    obtain ⟨stem, hstem⟩ := List.getLast?_eq_some_iff.1 hlast
    have hdir : directory = String.ofList stem ++ "/" := by
      rw [← String.toList_inj, hstem]
      simp [String.toList_append]
    have hempty : solid (String.ofList stem ++ "/") = solid (String.ofList stem) := by
      simp [solid, pieces, String.toList_append, piecesChars_append, piecesChars]
    rw [hdir, solid_append_slash hname, hempty]
  · exact solid_append_slash hname directory

theorem steps_append_name (hname : Node.IsName name) (front : String) :
    steps (front ++ name) = solid (front ++ name) := by
  have hne : name.toList ≠ [] := by simpa using hname.ne_empty
  have hlast : (front ++ name).toList.getLast? ≠ some '/' := by
    rw [String.toList_append, List.getLast?_append_of_ne_nil _ hne]
    exact fun h => hname.no_slash (List.mem_of_getLast? h)
  rw [steps, if_neg hlast]
  rfl

theorem steps_listed (hname : Node.IsName name) (directory : String) :
    steps (listed directory name) = solid directory ++ [name] := by
  obtain ⟨front, hfront⟩ : ∃ front, listed directory name = front ++ name := by
    unfold listed
    split
    · exact ⟨directory, rfl⟩
    · exact ⟨directory ++ "/", rfl⟩
  rw [← solid_listed hname, hfront, steps_append_name hname]

theorem steps_of_isName (hname : Node.IsName name) : steps name = [name] := by
  have hlast : name.toList.getLast? ≠ some '/' :=
    fun h => hname.no_slash (List.mem_of_getLast? h)
  have hpieces : pieces name = [name] := by
    rw [pieces, piecesChars_of_no_slash hname.no_slash]
    simp
  simp [steps, hpieces, hlast, hname.ne_empty]

theorem isAbsolute_of_isName (hname : Node.IsName name) : isAbsolute name = false := by
  have hhead : name.toList.head? ≠ some '/' := fun h => hname.no_slash (List.mem_of_head? h)
  simpa [isAbsolute] using hhead

end Path

namespace Disk

def Stop.onward (root : Node) (more : List String) : Stop → Stop
  | .found (.node place _) => descend root place more
  | .found (.vacant _ _) => .fault .noEntry
  | .fault f => .fault f
  | .link directory target rest => .link directory target (rest ++ more)

variable {root n : Node} {place q : Location} {steps more : List String} {links : Nat}

theorem descend_append (hmore : more ≠ []) :
    descend root place (steps ++ more) = (descend root place steps).onward root more := by
  fun_induction descend root place steps with
  | case1 => rfl
  | case2 place hat =>
    obtain ⟨step, more, rfl⟩ := List.exists_cons_of_ne_nil hmore
    simp [descend, hat, Stop.onward]
  | case7 place step rest entries access hat hmove k hlink hchild ih =>
    cases k with
    | link target => exact absurd rfl (hlink target)
    | file _ _ | directory _ _ | pipe => simp [descend, hat, hmove, hchild, ih]
  | _ => simp_all [descend, Stop.onward]

theorem descend_empty (hmore : more ≠ []) :
    descend root place ("" :: more) = descend root place more := by
  obtain ⟨step, more, rfl⟩ := List.exists_cons_of_ne_nil hmore
  rw [descend]
  split
  · rw [moveOf_empty]
  · next hat => simp [descend, hat]
  · next hat => simp [descend, hat]

theorem locateFrom_of_found {f : Found} (h : descend root place steps = .found f) :
    locateFrom root links place steps = .ok f := by
  cases links <;> rw [locateFrom, h]

theorem locateFrom_of_fault {f : PathFault} (h : descend root place steps = .fault f) :
    locateFrom root links place steps = .error f := by
  cases links <;> rw [locateFrom, h]

theorem locateFrom_append_of_found (hd : descend root place steps = .found (.node q n))
    (hmore : more ≠ []) :
    locateFrom root links place (steps ++ more) = locateFrom root links q more := by
  have hrest : descend root place (steps ++ more) = descend root q more := by
    rw [descend_append hmore, hd]
    rfl
  cases links <;> rw [locateFrom, locateFrom, hrest]

theorem locateFrom_append_of_fault {f : PathFault} (hd : descend root place steps = .fault f)
    (hmore : more ≠ []) : locateFrom root links place (steps ++ more) = .error f := by
  refine locateFrom_of_fault ?_
  rw [descend_append hmore, hd]
  rfl

theorem locateFrom_append (h : locateFrom root links place steps = .ok (.node q n)) :
    ∃ left, ∀ {more : List String}, more ≠ [] →
      locateFrom root links place (steps ++ more) = locateFrom root left q more := by
  induction links generalizing place steps with
  | zero =>
    cases hd : descend root place steps with
    | found f =>
      obtain rfl := Except.ok.inj ((locateFrom_of_found hd).symm.trans h)
      exact ⟨0, locateFrom_append_of_found hd⟩
    | fault f => simp [locateFrom_of_fault hd] at h
    | link directory target rest => simp [locateFrom, hd] at h
  | succ links ih =>
    cases hd : descend root place steps with
    | found f =>
      obtain rfl := Except.ok.inj ((locateFrom_of_found hd).symm.trans h)
      exact ⟨links + 1, locateFrom_append_of_found hd⟩
    | fault f => simp [locateFrom_of_fault hd] at h
    | link directory target rest =>
      rw [locateFrom, hd] at h
      obtain ⟨left, hleft⟩ := ih h
      refine ⟨left, fun hmore => ?_⟩
      rw [locateFrom, descend_append hmore, hd]
      simpa [Stop.onward] using hleft hmore

theorem locateFrom_append_of_error {f : PathFault} (h : locateFrom root links place steps = .error f)
    (hmore : more ≠ []) : locateFrom root links place (steps ++ more) = .error f := by
  induction links generalizing place steps with
  | zero =>
    cases hd : descend root place steps with
    | found f => simp [locateFrom_of_found hd] at h
    | fault g => rw [locateFrom_append_of_fault hd hmore, ← locateFrom_of_fault hd, h]
    | link directory target rest =>
      rw [locateFrom, hd] at h
      rw [locateFrom, descend_append hmore, hd]
      exact h
  | succ links ih =>
    cases hd : descend root place steps with
    | found f => simp [locateFrom_of_found hd] at h
    | fault g => rw [locateFrom_append_of_fault hd hmore, ← locateFrom_of_fault hd, h]
    | link directory target rest =>
      rw [locateFrom, hd] at h
      rw [locateFrom, descend_append hmore, hd]
      simpa [Stop.onward] using ih h

theorem locateFrom_empty (hmore : more ≠ []) :
    locateFrom root links place (steps ++ "" :: more) =
      locateFrom root links place (steps ++ more) := by
  induction links generalizing place steps with
  | zero =>
    rw [locateFrom, locateFrom, descend_append (by simp), descend_append hmore]
    cases descend root place steps with
    | found f => cases f <;> simp [Stop.onward, descend_empty hmore]
    | fault f => rfl
    | link directory target rest => rfl
  | succ links ih =>
    rw [locateFrom, locateFrom, descend_append (by simp), descend_append hmore]
    cases descend root place steps with
    | found f => cases f <;> simp [Stop.onward, descend_empty hmore]
    | fault f => rfl
    | link directory target rest =>
      simp only [Stop.onward]
      rw [← List.append_assoc, ← List.append_assoc]
      exact ih

variable {d : Disk} {directory path name : String} {entries : List (String × Node)}
  {access : Access}

theorem locate_eq (hnul : Path.hasNul path = false) (hne : path ≠ "") :
    d.locate path = if pathLimit < path.utf8ByteSize then .error .nameTooLong
      else locateFrom d.root linkLimit (startOf d.here path) (Path.steps path) := by
  simp [locate, hnul, hne]

theorem node_eq_ok : d.node path = .ok n ↔ ∃ q, d.locate path = .ok (.node q n) := by
  constructor
  · exact locate_of_node
  · rintro ⟨q, hq⟩
    rw [node, hq]

theorem node_eq_error {f : PathFault} (hf : f ≠ .noEntry) :
    d.node path = .error f ↔ d.locate path = .error f := by
  unfold node
  constructor
  · intro h
    split at h
    · cases h
    · exact absurd (Except.error.inj h).symm hf
    · next hl => rw [hl, Except.error.inj h]
  · intro h
    rw [h]

theorem hides_iff : d.Hides path ↔ ∃ f, d.locate path = .error f ∧ f.meansAbsent = false := by
  refine exists_congr fun f => and_congr_left fun hf => node_eq_error ?_
  rintro rfl
  cases hf

theorem descend_child (hname : Node.IsName name)
    (hat : root.at? place = some (.directory entries access))
    (hchild : Node.child? entries name = some n) (hn : ∀ target, n ≠ .link target) :
    descend root place [name] = if !access.search then .fault .denied
      else if nameLimit < name.utf8ByteSize then .fault .nameTooLong
      else .found (.node (place ++ [name]) n) := by
  have hat' : root.at? (place ++ [name]) = some n := by
    rw [Node.at?_append, hat, Option.bind_some, Node.at?_cons, hchild, Option.bind_some,
      Node.at?_nil]
  have hmove : moveOf access name = _ := moveOf_name hname
  rw [descend_cons hat]
  split at hmove
  · next hdenied => rw [hmove, if_pos hdenied]
  · next hsearch =>
    rw [if_neg hsearch]
    split at hmove
    · next hlong => rw [hmove, if_pos hlong]
    · next hlong =>
      rw [hmove, hat', if_neg hlong]
      cases n with
      | link target => exact absurd rfl (hn target)
      | file _ _ | directory _ _ | pipe => simp only [descend, hat']

section Listed

variable (hname : Node.IsName name) (hnul : Path.hasNul directory = false)
  (hne : directory ≠ "")

include hname hnul hne

theorem locate_listed : d.locate (Path.listed directory name) =
    if pathLimit < (Path.listed directory name).utf8ByteSize then .error .nameTooLong
    else locateFrom d.root linkLimit (startOf d.here directory)
      (Path.steps directory ++ [name]) := by
  have hsteps : locateFrom d.root linkLimit (startOf d.here directory)
      (Path.steps directory ++ [name]) = locateFrom d.root linkLimit (startOf d.here directory)
        (Path.solid directory ++ [name]) := by
    rcases Path.steps_eq directory with h | h
    · rw [h]
    · rw [h, List.append_assoc]
      exact locateFrom_empty (by simp)
  obtain ⟨tail, htail⟩ := Path.listed_eq_append directory name
  have hstart : startOf d.here (Path.listed directory name) = startOf d.here directory := by
    rw [startOf, htail, Path.isAbsolute_append hne, startOf]
  have hlisted : Path.listed directory name ≠ "" := by
    rw [htail]
    exact fun h => hne (String.append_eq_empty_iff.1 h).1
  rw [locate_eq (Path.hasNul_listed hnul hname.no_nul) hlisted, Path.steps_listed hname, hstart,
    hsteps]

theorem hides_listed (hdir : d.Hides directory) : d.Hides (Path.listed directory name) := by
  rw [hides_iff] at hdir ⊢
  obtain ⟨f, hf, hhides⟩ := hdir
  rw [locate_listed hname hnul hne]
  split
  · exact ⟨_, rfl, rfl⟩
  · next hsize =>
    have hdirsize : ¬ pathLimit < directory.utf8ByteSize := by
      obtain ⟨tail, htail⟩ := Path.listed_eq_append directory name
      rw [htail, String.utf8ByteSize_append] at hsize
      omega
    rw [locate_eq hnul hne, if_neg hdirsize] at hf
    exact ⟨f, locateFrom_append_of_error hf (by simp), hhides⟩

end Listed

variable {q : Location}

theorem ne_empty_of_locate {f : Found} (h : d.locate path = .ok f) : path ≠ "" := by
  rintro rfl
  simp [locate, Path.hasNul] at h

theorem descend_dot (root : Node) (place : Location) :
    (∃ f, descend root place ["."] = .fault f) ∨
      ∃ n, descend root place ["."] = .found (.node place n) := by
  cases hat : root.at? place with
  | none => exact .inl ⟨_, by rw [descend, hat]⟩
  | some n =>
    cases n with
    | directory entries access =>
      cases hsearch : access.search with
      | false =>
        have hmove : moveOf access "." = _ := moveOf_denied hsearch (by decide)
        exact .inl ⟨.denied, by rw [descend_cons hat, hmove]⟩
      | true =>
        have hmove : moveOf access "." = _ := moveOf_dot hsearch
        exact .inr ⟨.directory entries access, by rw [descend_cons hat, hmove]; simp [descend, hat]⟩
    | file _ _ | link _ | pipe => exact .inl ⟨.notDirectory, by rw [descend, hat]⟩

theorem place_of_dot (h : locateFrom d.root linkLimit d.here ["."] = .ok (.node q n)) :
    q = d.here := by
  rcases descend_dot d.root d.here with ⟨f, hf⟩ | ⟨m, hm⟩
  · rw [locateFrom_of_fault hf] at h
    cases h
  · rw [locateFrom_of_found hm] at h
    cases h
    rfl

theorem locate_below (hname : Node.IsName name)
    (hdir : d.locate directory = .ok (.node q (.directory entries access)))
    (hchild : Node.child? entries name = some n) (hn : ∀ target, n ≠ .link target) :
    d.locate (Path.below directory name) =
      if pathLimit < (Path.below directory name).utf8ByteSize then .error .nameTooLong
      else if !access.search then .error .denied
      else if nameLimit < name.utf8ByteSize then .error .nameTooLong
      else .ok (.node (q ++ [name]) n) := by
  have hq := (locate_ok hdir).2
  have hstop := descend_child hname (at?_of_locateFrom hq) hchild hn
  have hend (links : Nat) : locateFrom d.root links q [name] =
      if !access.search then .error .denied
      else if nameLimit < name.utf8ByteSize then .error .nameTooLong
      else .ok (.node (q ++ [name]) n) := by
    split at hstop
    · next hsearch => rw [if_pos hsearch, locateFrom_of_fault hstop]
    · next hsearch =>
      rw [if_neg hsearch]
      split at hstop
      · next hlong => rw [if_pos hlong, locateFrom_of_fault hstop]
      · next hlong => rw [if_neg hlong, locateFrom_of_found hstop]
  unfold Path.below
  split
  · next hdot =>
    -- In the working directory an entry is known by its mere name.
    subst hdot
    obtain rfl := place_of_dot hq
    have hnul : Path.hasNul name = false := by simpa [Path.hasNul] using hname.no_nul
    rw [locate_eq hnul hname.ne_empty, Path.steps_of_isName hname, startOf,
      Path.isAbsolute_of_isName hname, if_neg Bool.false_ne_true, hend]
  · have hmore : [name] ≠ [] := by simp
    obtain ⟨left, hleft⟩ := locateFrom_append hq
    rw [locate_listed hname (hasNul_of_locate hdir) (ne_empty_of_locate hdir), hleft hmore, hend]

theorem locate_below_cases (hname : Node.IsName name)
    (hdir : d.locate directory = .ok (.node q (.directory entries access)))
    (hchild : Node.child? entries name = some n) (hn : ∀ target, n ≠ .link target) :
    d.locate (Path.below directory name) = .ok (.node (q ++ [name]) n) ∨
      d.Hides (Path.below directory name) := by
  rw [hides_iff, locate_below hname hdir hchild hn]
  split
  · exact .inr ⟨_, rfl, rfl⟩
  · split
    · exact .inr ⟨_, rfl, rfl⟩
    · split
      · exact .inr ⟨_, rfl, rfl⟩
      · exact .inl rfl

end Disk

end LeakScan
