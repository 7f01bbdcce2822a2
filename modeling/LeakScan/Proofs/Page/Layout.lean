import LeakScan.Page.Scripts
import LeakScan.Proofs.Text.LetterCase
import Mathlib.Data.List.Basic
import Mathlib.Data.List.Infix

namespace LeakScan.Page

variable {name s t rest : List Char} {o : Outline} {n : Nat}

/-- Mere text, in which nothing of the markup begins. -/
def IsPlain (t : List Char) : Prop := '<' ∉ t ∧ '&' ∉ t

def scriptTag : List Char := "script".toList

instance (t : List Char) : Decidable (IsPlain t) := inferInstanceAs (Decidable (_ ∧ _))

theorem scriptsFrom_plain {final : Bool} (ht : IsPlain t) :
    scriptsFrom (n + t.length) final o (t ++ rest) = scriptsFrom n final o rest := by
  induction t with
  | nil => rfl
  | cons c t ih =>
    obtain ⟨hangle, hand⟩ := ht
    rw [List.mem_cons, not_or] at hangle hand
    rw [List.length_cons, ← Nat.add_assoc, List.cons_append, scriptsFrom,
      if_neg (Ne.symm hangle.1), if_neg (Ne.symm hand.1), ih ⟨hangle.2, hand.2⟩]

def SpellsScript (name : List Char) : Prop := name.map Char.toLower = scriptTag

instance (name : List Char) : Decidable (SpellsScript name) := inferInstanceAs (Decidable (_ = _))

theorem spellsScript_scriptTag : SpellsScript scriptTag := by decide

namespace SpellsScript

variable (h : SpellsScript name)

include h

theorem length_eq : name.length = scriptTag.length := by
  rw [← h, List.length_map]

theorem exists_cons : ∃ c r, name = c :: r := by
  cases name with
  | nil => cases h.length_eq
  | cons c r => exact ⟨c, r, rfl⟩

theorem all_of_letters {f : Char → Bool}
    (hcase : Text.capitals.map (fun c => f c.toLower) = Text.capitals.map f)
    (hletters : scriptTag.all f = true) {c : Char} (hc : c ∈ name) : f c = true := by
  rw [← Text.toLower_eq_of_capitals hcase]
  apply List.all_eq_true.1 hletters
  rw [← h]
  exact List.mem_map_of_mem hc

theorem isAlpha {c : Char} (hc : c ∈ name) : c.isAlpha = true :=
  h.all_of_letters (by decide) (by decide) hc

theorem not_endsName {c : Char} (hc : c ∈ name) : endsName c = false := by
  simpa using h.all_of_letters (f := fun c => !endsName c) (by decide) (by decide) hc

theorem not_isBlank {c : Char} (hc : c ∈ name) : Text.isBlank c = false := by
  simpa using h.all_of_letters (f := fun c => !Text.isBlank c) (by decide) (by decide) hc

theorem nameText_eq : nameText name = "script" := by
  have hlower : (String.ofList name).toLower = "script" := by
    apply String.toList_injective
    rw [Text.toList_toLower, String.toList_ofList, h]
    rfl
  rw [nameText, ← Text.lower_toLower, hlower]
  decide

theorem foldsTo_zip : ((scriptTag.zip name).all fun p => foldsTo p.1 p.2) = true := by
  rw [← h]
  clear h
  induction name with
  | nil => rfl
  | cons c name ih =>
    rw [List.map_cons, List.zip_cons_cons, List.all_cons, ih, Bool.and_true]
    simp [foldsTo]

end SpellsScript

theorem skipGap_end : skipGap ('>' :: rest) = '>' :: rest := by
  unfold skipGap
  split
  · next h => cases h
  · next h => cases h
  · next h => cases h; rfl

theorem startTag_bare (h : ∀ c ∈ name, endsName c = false) :
    startTag (name ++ '>' :: rest) = .openTag (nameText name) false rest := by
  have htake : (name ++ '>' :: rest).takeWhile (fun c => !endsName c) = name := by
    rw [List.takeWhile_append_of_pos (by simpa using h)]
    simp [endsName]
  have hdrop : (name ++ '>' :: rest).dropWhile (fun c => !endsName c) = '>' :: rest := by
    rw [List.dropWhile_append_of_pos (by simpa using h)]
    simp [endsName]
  have hnone (n : Nat) (b : Bool) : attributes n b ('>' :: rest) = ([], '>' :: rest) := by
    cases n with
    | zero => rfl
    | succ n => simp [attributes, attribute?]
  simp only [startTag, htake, hdrop, skipGap_end, hnone]
  rfl

theorem construct_script (h : SpellsScript name) :
    construct? (name ++ '>' :: rest) = some (.openTag "script" false rest) := by
  have htag : startTag (name ++ '>' :: rest) = _ := startTag_bare fun _ => h.not_endsName
  rw [h.nameText_eq] at htag
  obtain ⟨c, r, rfl⟩ := h.exists_cons
  rw [List.cons_append] at htag ⊢
  rw [construct?, if_pos (h.isAlpha List.mem_cons_self), htag]

theorem rawEnd?_script (h : SpellsScript name) (rest : List Char) :
    ∃ text, rawEnd? scriptTag ('<' :: '/' :: (name ++ '>' :: rest)) = some ⟨text, true, rest⟩ := by
  have hdrop : (name ++ '>' :: rest).dropWhile Text.isBlank = name ++ '>' :: rest := by
    obtain ⟨c, r, rfl⟩ := h.exists_cons
    rw [List.cons_append,
      List.dropWhile_cons_of_neg (by simp [h.not_isBlank List.mem_cons_self])]
  have hletters : name.all Char.isAlpha = true := List.all_eq_true.2 fun _ => h.isAlpha
  have hend : ('>' :: rest).dropWhile Text.isBlank = '>' :: rest := by simp [Text.isBlank]
  unfold rawEnd?
  simp only [hdrop, ← h.length_eq, List.take_left', List.drop_left', h.foldsTo_zip, hletters,
    beq_self_eq_true, Bool.and_self, hend]
  exact ⟨_, rfl⟩

theorem rawEnd?_eq_none (h : ¬ ['<', '/'] <+: s) : rawEnd? name s = none := by
  unfold rawEnd?
  split
  · exact absurd ⟨_, rfl⟩ h
  · rfl

theorem findRawEnd_append {e : RawEnd} (hs : ¬ ['<', '/'] <:+: s)
    (hend : rawEnd? name ('<' :: '/' :: t) = some e) :
    findRawEnd name (s ++ '<' :: '/' :: t) = some (s, e) := by
  induction s with
  | nil => rw [List.nil_append, findRawEnd, hend]
  | cons c s ih =>
    rw [List.infix_cons_iff, not_or] at hs
    have hnone : rawEnd? name (c :: (s ++ '<' :: '/' :: t)) = none := by
      apply rawEnd?_eq_none
      intro hprefix
      -- The mark would stand in the text, or at its end before a bracket that is no slash.
      cases s with
      | nil => simp at hprefix
      | cons d s =>
        apply hs.1
        simpa using hprefix
    rw [List.cons_append, findRawEnd, hnone, ih hs.2]
    rfl

theorem rawText_script (hname : SpellsScript name) (hs : ¬ ['<', '/'] <:+: s) :
    rawText scriptTag (n + 1) (s ++ '<' :: '/' :: (name ++ '>' :: rest)) = (s, some rest) := by
  obtain ⟨text, htext⟩ := rawEnd?_script hname rest
  rw [rawText, findRawEnd_append hs htext]
  rfl

/-- A text, and the script behind it between its tags. -/
structure Embedded where
  text : List Char
  opening : List Char
  script : List Char
  closing : List Char

/-- Nothing of the markup begins in the text, and no end tag in the script. -/
structure Embedded.Apart (p : Embedded) : Prop where
  text : IsPlain p.text
  opening : SpellsScript p.opening
  script : ¬ ['<', '/'] <:+: p.script
  closing : SpellsScript p.closing

instance (p : Embedded) : Decidable p.Apart :=
  decidable_of_iff (IsPlain p.text ∧ SpellsScript p.opening ∧ ¬ ['<', '/'] <:+: p.script ∧
      SpellsScript p.closing)
    ⟨fun h => ⟨h.1, h.2.1, h.2.2.1, h.2.2.2⟩, fun h => ⟨h.text, h.opening, h.script, h.closing⟩⟩

def embedded : List Embedded → List Char → List Char
  | [], last => last
  | p :: more, last =>
    p.text ++ '<' :: (p.opening ++ '>' ::
      (p.script ++ '<' :: '/' :: (p.closing ++ '>' :: embedded more last)))

variable {p : Embedded} {parts : List Embedded} {last : List Char}

theorem scriptsFrom_script (hp : p.Apart) :
    scriptsFrom (n + 1) false {} ('<' :: (p.opening ++ '>' ::
      (p.script ++ '<' :: '/' :: (p.closing ++ '>' :: rest)))) =
      (scriptsFrom n false {} rest).map (scriptContent {} p.script :: ·) := by
  have hraw (n : Nat) : rawText "script".toList (n + 1)
      (p.script ++ '<' :: '/' :: (p.closing ++ '>' :: rest)) = (p.script, some rest) :=
    rawText_script hp.closing hp.script
  have hclosed : (({} : Outline).startTag "script" false).endTag "script" = {} := by decide
  have hopen : (({} : Outline).startTag "script" false).inPreformatted = false := by decide
  have hcontent : scriptContent (({} : Outline).startTag "script" false) p.script =
      scriptContent {} p.script := by
    unfold scriptContent
    rw [hopen]
    rfl
  rw [scriptsFrom, if_pos rfl, construct_script hp.opening]
  simp only [hraw, hclosed, hcontent]
  rfl

theorem length_embedded_cons (p : Embedded) (more : List Embedded) (last : List Char) :
    p.text.length + (embedded more last).length < (embedded (p :: more) last).length := by
  simp only [embedded, List.length_append, List.length_cons]
  omega

theorem scriptsFrom_embedded (hparts : ∀ p ∈ parts, p.Apart) (hlast : IsPlain last)
    (hn : (embedded parts last).length ≤ n) :
    scriptsFrom n false {} (embedded parts last) =
      .ok (parts.map fun p => scriptContent {} p.script) := by
  induction parts generalizing n with
  | nil =>
    obtain ⟨m, rfl⟩ := Nat.exists_eq_add_of_le' hn
    have h : scriptsFrom (m + last.length) false {} (last ++ []) = scriptsFrom m false {} [] :=
      scriptsFrom_plain hlast
    rw [List.append_nil] at h
    rw [embedded, h]
    cases m <;> rfl
  | cons p more ih =>
    rw [List.forall_mem_cons] at hparts
    have hlength := length_embedded_cons p more last
    obtain ⟨m, rfl⟩ : ∃ m, n = (m + 1) + p.text.length := ⟨n - p.text.length - 1, by omega⟩
    rw [embedded, scriptsFrom_plain hparts.1.text, scriptsFrom_script hparts.1,
      ih hparts.2 (by omega)]
    rfl

theorem scripts_embedded (hparts : ∀ p ∈ parts, p.Apart) (hlast : IsPlain last) :
    scripts (embedded parts last) =
      .ok ((parts.map fun p => scriptContent {} p.script).filter fun s => !s.isEmpty) := by
  rw [scripts, scriptsFrom_embedded hparts hlast (by omega)]
  rfl

theorem scriptContent_of_filled (h : s = [] ∨ ∃ c ∈ s, Text.isAsciiBlank c = false) :
    scriptContent o s = s := by
  cases h with
  | inl h =>
    rw [h, scriptContent]
    simp
  | inr h =>
    obtain ⟨c, hc, hblank⟩ := h
    have hall : s.all Text.isAsciiBlank = false :=
      List.all_eq_false.2 ⟨c, hc, by simp [hblank]⟩
    rw [scriptContent, hall, Bool.not_false, Bool.or_true, if_pos rfl]

/-- Reading a page gives back the scripts that were put between its texts, unchanged and in their
order, without the empty ones: brackets, references, quotes and tags in a script are part of it, as
long as none begins like an end tag. -/
theorem scripts_recovered (parts : List Embedded) (last : List Char)
    (hparts : ∀ p ∈ parts, p.Apart) (hlast : IsPlain last)
    (hfilled : ∀ p ∈ parts, p.script = [] ∨ ∃ c ∈ p.script, Text.isAsciiBlank c = false) :
    scripts (embedded parts last) = .ok ((parts.map Embedded.script).filter fun s => s ≠ []) := by
  have hcontent : (parts.map fun p => scriptContent {} p.script) = parts.map Embedded.script :=
    List.map_congr_left fun p hp => scriptContent_of_filled (hfilled p hp)
  rw [scripts_embedded hparts hlast, hcontent]
  congr 1
  apply List.filter_congr
  intro s hs
  cases s <;> rfl

def riddledParts : List Embedded :=
  [⟨"1 > 0 ".toList, "SCRIPT".toList, "if (a<b && b<c) s = '<script>&lt;'".toList, "Script".toList⟩,
    ⟨[], "script".toList, [], "script".toList⟩,
    ⟨"then\n".toList, "script".toList, "\n<p title=\"".toList, "scriPT".toList⟩]

theorem scripts_recovered_riddled :
    scripts (embedded riddledParts "end".toList) =
      .ok ["if (a<b && b<c) s = '<script>&lt;'".toList, "\n<p title=\"".toList] := by
  have hfilled : (riddledParts.all fun p =>
      p.script.isEmpty || p.script.any fun c => !Text.isAsciiBlank c) = true := by decide
  exact scripts_recovered riddledParts "end".toList (by decide) (by decide) (by simpa using hfilled)

end LeakScan.Page
