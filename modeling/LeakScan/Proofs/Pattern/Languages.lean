import LeakScan.Catalog
import LeakScan.Proofs.Pattern.Words
import LeakScan.Proofs.Text.LetterCase

namespace LeakScan

namespace Text

/-- The letter that a character counts as where case is ignored: its small partner, and a letter for
the long s and the kelvin sign. -/
def foldCase (c : Char) : Char :=
  if c = '\u017F' then 's' else if c = '\u212A' then 'k' else c.toLower

theorem isBlank_foldCase (c : Char) (h : isBlank c = true) : isBlank (foldCase c) = true := by
  have hsmall : isBlank c.toLower = isBlank c := toLower_eq_of_capitals (by decide) c
  unfold foldCase
  split
  · next heq => exact absurd (heq ▸ h) (by decide)
  · split
    · next heq => exact absurd (heq ▸ h) (by decide)
    · exact hsmall.trans h

end Text

namespace Pattern

variable {a c : Char} {t : String} {u v w : List Char}

theorem sameLetter_iff (ha : a.isLower = true) : sameLetter a c = true ↔ Text.foldCase c = a := by
  have hlong : '\u017F' ≠ a := by
    rintro rfl
    exact absurd ha (by decide)
  have hkelvin : '\u212A' ≠ a := by
    rintro rfl
    exact absurd ha (by decide)
  have hself (h : c = '\u017F' ∨ c = '\u212A') : c.toLower = c := by
    rcases h with rfl | rfl <;> decide
  unfold sameLetter Text.foldCase
  simp only [Bool.or_eq_true, Bool.and_eq_true, beq_iff_eq]
  grind

theorem matches_anyCase (ht : ∀ a ∈ t.toList, a.isLower = true) :
    Matches (anyCase t) w ↔ w.map Text.foldCase = t.toList :=
  matches_all_letters fun a ha _ => sameLetter_iff (ht a ha)

end Pattern

namespace Detector

open Pattern

def IsAsciiAlnum (c : Char) : Prop :=
  '0' ≤ c ∧ c ≤ '9' ∨ 'A' ≤ c ∧ c ≤ 'Z' ∨ 'a' ≤ c ∧ c ≤ 'z'

def IsSmallHex (c : Char) : Prop := '0' ≤ c ∧ c ≤ '9' ∨ 'a' ≤ c ∧ c ≤ 'f'

def Headed (head : String) (n : Nat) (accepts : Char → Prop) (w : List Char) : Prop :=
  ∃ tail, w = head.toList ++ tail ∧ tail.length = n ∧ ∀ c ∈ tail, accepts c

/-- One of several texts, each character being taken for the one that it counts as. -/
def OneOf (fold : Char → Char) (texts : List String) (w : List Char) : Prop :=
  ∃ t ∈ texts, w.map fold = t.toList

/-- A colon right behind the first word, or an equals sign with blanks around it or none. -/
def DebugSetting (w : List Char) : Prop :=
  ∃ name before mark after value, w = name ++ before ++ mark :: (after ++ value) ∧
    name.map Text.foldCase = "debug".toList ∧ value.map Text.foldCase = "true".toList ∧
    (∀ c ∈ before, Text.isBlank c = true) ∧ (∀ c ∈ after, Text.isBlank c = true) ∧
    (mark = ':' ∧ before = [] ∨ mark = '=')

/-- The built-in detectors, secrets first, each with its words. -/
def languages : List (Detector × (List Char → Prop)) :=
  [(openAI, Headed "sk-" 48 IsAsciiAlnum),
    (anthropic, Headed "sk-ant-" 32 IsAsciiAlnum),
    (cohere, Headed "" 40 IsAsciiAlnum),
    (ai21, Headed "" 32 IsAsciiAlnum),
    (googleAI, Headed "AIza" 35 fun c => IsAsciiAlnum c ∨ c = '-' ∨ c = '_'),
    (azureOpenAI, Headed "" 32 IsSmallHex),
    (huggingFace, Headed "hf_" 34 IsAsciiAlnum),
    (apiCalls, OneOf id [".create(", ".generate(", ".complete(", ".predict("]),
    (debugMode, DebugSetting),
    (hardcodedCredentials, OneOf Text.foldCase ["password", "secret", "key", "token", "auth"])]

variable {head : String} {n : Nat} {accepts : Char → Prop} {fold : Char → Char}
  {texts : List String}

theorem prefixFree_headed : PrefixFree (Headed head n accepts) := by
  refine prefixFree_of_length (n := head.length + n) fun w hw => ?_
  obtain ⟨tail, rfl, htail, -⟩ := hw
  rw [List.length_append, String.length_toList, htail]

theorem prefixFree_oneOf
    (h : ∀ s ∈ texts, ∀ t ∈ texts, s.toList <+: t.toList → s.toList = t.toList) :
    PrefixFree (OneOf fold texts) := by
  rintro u v ⟨s, hs, hu⟩ ⟨t, ht, hv⟩ huv
  have hst : s.toList <+: t.toList := hu ▸ hv ▸ huv.map fold
  have hlength : u.length = v.length := by
    rw [← List.length_map (f := fold), hu, h s hs t ht hst, ← hv, List.length_map]
  exact huv.eq_of_length hlength

theorem mark_of_prefix {before before' u v : List Char} {mark mark' : Char}
    (hbefore : ∀ c ∈ before, Text.isBlank c = true) (hmark : Text.isBlank mark = false)
    (hbefore' : ∀ c ∈ before', Text.isBlank c = true) (hmark' : Text.isBlank mark' = false)
    (h : before ++ mark :: u <+: before' ++ mark' :: v) :
    before = before' ∧ mark = mark' ∧ u <+: v := by
  induction before generalizing before' with
  | nil =>
    cases before' with
    | nil => simpa using h
    | cons c before' =>
      obtain ⟨rfl, -⟩ := List.cons_prefix_cons.1 h
      rw [hbefore' mark List.mem_cons_self] at hmark
      cases hmark
  | cons c before ih =>
    rw [List.forall_mem_cons] at hbefore
    cases before' with
    | nil =>
      obtain ⟨rfl, -⟩ := List.cons_prefix_cons.1 h
      rw [hbefore.1] at hmark'
      cases hmark'
    | cons c' before' =>
      rw [List.forall_mem_cons] at hbefore'
      obtain ⟨rfl, hmore⟩ := List.cons_prefix_cons.1 h
      obtain ⟨rfl, hrest⟩ := ih hbefore.2 hbefore'.2 hmore
      exact ⟨rfl, hrest⟩

theorem prefixFree_debugSetting : PrefixFree DebugSetting := by
  rintro u v ⟨name, before, mark, after, value, rfl, hname, hvalue, hbefore, hafter, hmark⟩
    ⟨name', before', mark', after', value', rfl, hname', hvalue', hbefore', hafter', hmark'⟩ huv
  have hblank {m : Char} {b : List Char} (h : m = ':' ∧ b = [] ∨ m = '=') :
      Text.isBlank m = false := by
    rcases h with ⟨rfl, -⟩ | rfl <;> decide
  -- A value is no blank at its beginning, so the blanks before it have an end as well.
  have hfirst {l : List Char} (h : l.map Text.foldCase = "true".toList) :
      ∃ c r, l = c :: r ∧ r.length = 3 ∧ Text.isBlank c = false := by
    obtain ⟨c, r, rfl, hc, hr⟩ := List.map_eq_cons_iff.1 h
    refine ⟨c, r, rfl, by simpa using congrArg List.length hr, ?_⟩
    by_contra hblank
    have hfold := Text.isBlank_foldCase c (by simpa using hblank)
    rw [hc] at hfold
    exact absurd hfold (by decide)
  have hlength : name.length = name'.length := by
    rw [← List.length_map (f := Text.foldCase), hname, ← hname', List.length_map]
  rw [List.append_assoc, List.append_assoc] at huv
  obtain ⟨tail, htail⟩ := huv
  rw [List.append_assoc] at htail
  obtain ⟨rfl, hrest⟩ := List.append_inj htail hlength
  obtain ⟨rfl, rfl, hvalues⟩ :=
    mark_of_prefix hbefore (hblank hmark) hbefore' (hblank hmark') ⟨tail, hrest⟩
  obtain ⟨c, r, rfl, hr, hc⟩ := hfirst hvalue
  obtain ⟨c', r', rfl, hr', hc'⟩ := hfirst hvalue'
  obtain ⟨rfl, rfl, hends⟩ := mark_of_prefix hafter hc hafter' hc' hvalues
  rw [hends.eq_of_length (hr.trans hr'.symm)]

theorem isAlnum_iff {c : Char} : isAlnum c = true ↔ IsAsciiAlnum c := by
  have hranges : isAlnum c = ((decide ('A'.val ≤ c.val ∧ c.val ≤ 'Z'.val) ||
      decide ('a'.val ≤ c.val) && decide (c.val ≤ 'z'.val)) ||
      decide ('0'.val ≤ c.val) && decide (c.val ≤ '9'.val)) := rfl
  simp only [hranges, IsAsciiAlnum, Bool.or_eq_true, Bool.and_eq_true, decide_eq_true_eq,
    Char.le_def]
  tauto

theorem isKeyChar_iff {c : Char} : isKeyChar c = true ↔ IsAsciiAlnum c ∨ c = '-' ∨ c = '_' := by
  rw [isKeyChar, Bool.or_eq_true, Bool.or_eq_true, ← isAlnum, isAlnum_iff, beq_iff_eq, beq_iff_eq,
    or_assoc]

theorem isHex_iff {c : Char} : isHex c = true ↔ IsSmallHex c := by
  simp only [isHex, IsSmallHex, Char.isDigit, Bool.or_eq_true, Bool.and_eq_true, decide_eq_true_eq,
    Char.le_def, ge_iff_le]

section Heads

variable {holds : Char → Bool} {w : List Char} (h : ∀ c, holds c = true ↔ accepts c)

include h

theorem matches_run : Matches (times n (one holds)) w ↔ Headed "" n accepts w := by
  rw [matches_times]
  constructor
  · rintro ⟨hlength, hall⟩
    exact ⟨w, rfl, hlength, fun c hc => (h c).1 (hall c hc)⟩
  · rintro ⟨tail, rfl, hlength, hall⟩
    exact ⟨hlength, fun c hc => (h c).2 (hall c hc)⟩

theorem matches_headed :
    Matches (next (word head) (times n (one holds))) w ↔ Headed head n accepts w := by
  rw [matches_next]
  constructor
  · rintro ⟨u, v, hu, hv, rfl⟩
    obtain ⟨tail, hv, htail⟩ := (matches_run h).1 hv
    rw [matches_word.1 hu, hv]
    exact ⟨tail, rfl, htail⟩
  · rintro ⟨tail, rfl, htail⟩
    exact ⟨_, tail, matches_word.2 rfl, (matches_run h).2 ⟨tail, rfl, htail⟩, rfl⟩

end Heads

theorem matches_oneOf (p : String → Pattern) (t : String) (texts : List String) {w : List Char}
    (h : ∀ s ∈ t :: texts, Matches (p s) w ↔ w.map fold = s.toList) :
    Matches (any (p t) (texts.map p)) w ↔ OneOf fold (t :: texts) w := by
  rw [matches_any, ← List.map_cons]
  constructor
  · rintro ⟨q, hq, hw⟩
    obtain ⟨s, hs, rfl⟩ := List.mem_map.1 hq
    exact ⟨s, hs, (h s hs).1 hw⟩
  · rintro ⟨s, hs, hw⟩
    exact ⟨p s, List.mem_map_of_mem hs, (h s hs).2 hw⟩

theorem matches_debugMode {w : List Char} : Matches debugMode.pattern w ↔ DebugSetting w := by
  have hdebug : ∀ a ∈ "debug".toList, a.isLower = true := List.all_eq_true.1 (by decide)
  have htrue : ∀ a ∈ "true".toList, a.isLower = true := List.all_eq_true.1 (by decide)
  rw [debugMode, matches_either]
  constructor
  · rintro (h | h)
    · obtain ⟨name, r, hname, hr, rfl⟩ := matches_all_cons.1 h
      obtain ⟨_, r, hmark, ht, rfl⟩ := matches_all_cons.1 hr
      obtain ⟨mark, hcolon, rfl⟩ := matches_one.1 hmark
      obtain ⟨after, value, hafter, hvalue, rfl⟩ := matches_all_cons.1 ht
      exact ⟨name, [], mark, after, value, by simp, (matches_anyCase hdebug).1 hname,
        (matches_anyCase htrue).1 hvalue, by simp, matches_many.1 hafter,
        .inl ⟨beq_iff_eq.1 hcolon, rfl⟩⟩
    · obtain ⟨name, r, hname, hr, rfl⟩ := matches_all_cons.1 h
      obtain ⟨before, r, hbefore, hs, rfl⟩ := matches_all_cons.1 hr
      obtain ⟨_, r, hmark, ht, rfl⟩ := matches_all_cons.1 hs
      obtain ⟨mark, hequals, rfl⟩ := matches_one.1 hmark
      obtain ⟨after, value, hafter, hvalue, rfl⟩ := matches_all_cons.1 ht
      exact ⟨name, before, mark, after, value, by simp, (matches_anyCase hdebug).1 hname,
        (matches_anyCase htrue).1 hvalue, matches_many.1 hbefore, matches_many.1 hafter,
        .inr (beq_iff_eq.1 hequals)⟩
  · rintro ⟨name, before, mark, after, value, rfl, hname, hvalue, hbefore, hafter, hmark⟩
    have hname := (matches_anyCase hdebug).2 hname
    have htail : Matches (all [many Text.isBlank, anyCase "true"]) (after ++ value) :=
      matches_all_cons.2
        ⟨after, value, matches_many.2 hafter, (matches_anyCase htrue).2 hvalue, rfl⟩
    rcases hmark with ⟨rfl, rfl⟩ | rfl
    · refine .inl (matches_all_cons.2 ⟨name, ':' :: (after ++ value), hname, ?_, by simp⟩)
      exact matches_all_cons.2 ⟨[':'], _, matches_one.2 ⟨':', rfl, rfl⟩, htail, rfl⟩
    · refine .inr (matches_all_cons.2 ⟨name, before ++ '=' :: (after ++ value), hname, ?_, by simp⟩)
      refine matches_all_cons.2 ⟨before, _, matches_many.2 hbefore, ?_, rfl⟩
      exact matches_all_cons.2 ⟨['='], _, matches_one.2 ⟨'=', rfl, rfl⟩, htail, rfl⟩

theorem matches_iff {d : Detector} {L : List Char → Prop} (h : (d, L) ∈ languages)
    (w : List Char) : Matches d.pattern w ↔ L w := by
  simp only [languages, List.mem_cons, List.not_mem_nil, or_false, Prod.mk.injEq] at h
  rcases h with ⟨rfl, rfl⟩ | ⟨rfl, rfl⟩ | ⟨rfl, rfl⟩ | ⟨rfl, rfl⟩ | ⟨rfl, rfl⟩ | ⟨rfl, rfl⟩ |
    ⟨rfl, rfl⟩ | ⟨rfl, rfl⟩ | ⟨rfl, rfl⟩ | ⟨rfl, rfl⟩
  · exact matches_headed fun _ => isAlnum_iff
  · exact matches_headed fun _ => isAlnum_iff
  · exact matches_run fun _ => isAlnum_iff
  · exact matches_run fun _ => isAlnum_iff
  · exact matches_headed fun _ => isKeyChar_iff
  · exact matches_run fun _ => isHex_iff
  · exact matches_headed fun _ => isAlnum_iff
  · exact matches_oneOf word ".create(" [".generate(", ".complete(", ".predict("] fun t _ => by
      rw [matches_word, List.map_id]
  · exact matches_debugMode
  · have hall : ["password", "secret", "key", "token", "auth"].all
        (fun t => t.toList.all Char.isLower) = true := by decide
    have hsmall : ∀ t ∈ ["password", "secret", "key", "token", "auth"],
        ∀ a ∈ t.toList, a.isLower = true :=
      fun t ht => List.all_eq_true.1 (List.all_eq_true.1 hall t ht)
    exact matches_oneOf anyCase "password" ["secret", "key", "token", "auth"]
      fun t ht => matches_anyCase (hsmall t ht)

theorem prefixFree_of_languages {d : Detector} {L : List Char → Prop} (h : (d, L) ∈ languages) :
    PrefixFree L := by
  simp only [languages, List.mem_cons, List.not_mem_nil, or_false, Prod.mk.injEq] at h
  rcases h with ⟨-, rfl⟩ | ⟨-, rfl⟩ | ⟨-, rfl⟩ | ⟨-, rfl⟩ | ⟨-, rfl⟩ | ⟨-, rfl⟩ | ⟨-, rfl⟩ |
    ⟨-, rfl⟩ | ⟨-, rfl⟩ | ⟨-, rfl⟩
  case inr.inr.inr.inr.inr.inr.inr.inl => exact prefixFree_oneOf (by decide)
  case inr.inr.inr.inr.inr.inr.inr.inr.inl => exact prefixFree_debugSetting
  case inr.inr.inr.inr.inr.inr.inr.inr.inr => exact prefixFree_oneOf (by decide)
  all_goals exact prefixFree_headed

/-- Each of the ten detectors finds the words of its set and nothing else: a search tells none
exactly if no word occurs in the text, and otherwise a place where a word stands, the first one of
such places, and the only word that begins there. -/
theorem search_recognises :
    languages.map (·.1) = secrets ++ codes ∧
    ∀ (d : Detector) (L : List Char → Prop), (d, L) ∈ languages → ∀ text : List Char,
      (d.pattern.search text = none ↔ ∀ w, L w → ¬ w <:+: text) ∧
      ∀ m, d.pattern.search text = some m →
        m.stop ≤ text.length ∧ (text.take m.stop).drop m.start = m.word ∧ L m.word ∧
        (∀ i < m.start, ∀ w, L w → ¬ w <+: text.drop i) ∧
        ∀ w, L w → w <+: text.drop m.start → w = m.word :=
  ⟨rfl, fun _ _ h text => search_told (matches_iff h) (prefixFree_of_languages h) text⟩

theorem search_recognises_blank_before_colon :
    (debugMode, DebugSetting) ∈ languages ∧
    ∃ m, debugMode.pattern.search "debug : debug\u2003=\nTRUE".toList = some m ∧ m.start = 8 ∧
      m.stop = 20 ∧ DebugSetting m.word ∧
      ∀ w, DebugSetting w → w <+: ("debug : debug\u2003=\nTRUE".toList.drop 8) → w = m.word := by
  have hmem : (debugMode, DebugSetting) ∈ languages := by simp [languages]
  obtain ⟨-, htold⟩ := search_recognises
  obtain ⟨-, hfound⟩ :=
    htold debugMode DebugSetting hmem "debug : debug\u2003=\nTRUE".toList
  have hsearch : debugMode.pattern.search "debug : debug\u2003=\nTRUE".toList =
      some ⟨8, "debug\u2003=\nTRUE".toList⟩ := by decide
  obtain ⟨-, -, hword, -, honly⟩ := hfound _ hsearch
  exact ⟨hmem, _, hsearch, rfl, by decide, hword, honly⟩

end Detector

end LeakScan
