
namespace LeakScan

inductive Pattern where
  | one (accepts : Char → Bool)
  | nothing
  | next (first second : Pattern)
  /-- Either pattern, the first one preferred. -/
  | either (first second : Pattern)
  /-- Any number of characters of a class, more of them preferred. -/
  | many (accepts : Char → Bool)

namespace Pattern

def restsOfMany (accepts : Char → Bool) : List Char → List (List Char)
  | [] => [[]]
  | c :: r => if accepts c then restsOfMany accepts r ++ [c :: r] else [c :: r]

def rests : Pattern → List Char → List (List Char)
  | one _, [] => []
  | one accepts, c :: r => if accepts c then [r] else []
  | nothing, s => [s]
  | next p q, s => (p.rests s).flatMap q.rests
  | either p q, s => p.rests s ++ q.rests s
  | many accepts, s => restsOfMany accepts s

inductive Matches : Pattern → List Char → Prop where
  | one {accepts : Char → Bool} {c : Char} : accepts c = true → Matches (.one accepts) [c]
  | nothing : Matches .nothing []
  | next {p q : Pattern} {u v : List Char} : Matches p u → Matches q v → Matches (.next p q) (u ++ v)
  | first {p q : Pattern} {w : List Char} : Matches p w → Matches (.either p q) w
  | second {p q : Pattern} {w : List Char} : Matches q w → Matches (.either p q) w
  | many {accepts : Char → Bool} {w : List Char} : (∀ c ∈ w, accepts c = true) →
      Matches (.many accepts) w

/-- A match in a text: the number of characters before it, and the matched word. -/
structure Match where
  start : Nat
  word : List Char
deriving DecidableEq, Repr

def Match.stop (m : Match) : Nat := m.start + m.word.length

def wordAt (p : Pattern) (s : List Char) : Option (List Char) :=
  (p.rests s).head?.map fun rest => s.take (s.length - rest.length)

def searchFrom (p : Pattern) (start : Nat) : List Char → Option Match
  | [] => (p.wordAt []).map (⟨start, ·⟩)
  | c :: r =>
    match p.wordAt (c :: r) with
    | some word => some ⟨start, word⟩
    | none => searchFrom p (start + 1) r

def search (p : Pattern) (s : List Char) : Option Match := p.searchFrom 0 s

def times : Nat → Pattern → Pattern
  | 0, _ => nothing
  | n + 1, p => next p (times n p)

def all : List Pattern → Pattern
  | [] => nothing
  | [p] => p
  | p :: ps => next p (all ps)

def any (p : Pattern) : List Pattern → Pattern
  | [] => p
  | q :: qs => either p (any q qs)

def word (w : String) : Pattern := all (w.toList.map fun a => one (· == a))

/-- Whether `c` is the small letter `a` in either case. Two characters beyond ASCII fold to letters:
the long s and the kelvin sign. -/
def sameLetter (a c : Char) : Bool :=
  c.toLower == a || (a == 's' && c == '\u017F') || (a == 'k' && c == '\u212A')

def anyCase (w : String) : Pattern := all (w.toList.map fun a => one (sameLetter a))

theorem mem_restsOfMany {accepts : Char → Bool} {s r : List Char} :
    r ∈ restsOfMany accepts s ↔ ∃ w, (∀ c ∈ w, accepts c = true) ∧ s = w ++ r := by
  induction s generalizing r with
  | nil =>
    simp only [restsOfMany, List.mem_singleton]
    constructor
    · rintro rfl
      exact ⟨[], by simp, rfl⟩
    · rintro ⟨w, _, h⟩
      exact (List.append_eq_nil_iff.1 h.symm).2
  | cons c t ih =>
    rw [restsOfMany]
    split
    · next hc =>
      simp only [List.mem_append, ih, List.mem_singleton]
      constructor
      · rintro (⟨w, hw, rfl⟩ | rfl)
        · exact ⟨c :: w, by simpa [hc] using hw, rfl⟩
        · exact ⟨[], by simp, rfl⟩
      · rintro ⟨w, hw, h⟩
        cases w with
        | nil => exact .inr h.symm
        | cons d w =>
          obtain ⟨rfl, rfl⟩ := List.cons.inj h
          exact .inl ⟨w, fun x hx => hw x (by simp [hx]), rfl⟩
    · next hc =>
      simp only [List.mem_singleton]
      constructor
      · rintro rfl
        exact ⟨[], by simp, rfl⟩
      · rintro ⟨w, hw, h⟩
        cases w with
        | nil => exact h.symm
        | cons d w =>
          obtain ⟨rfl, rfl⟩ := List.cons.inj h
          exact absurd (hw c (by simp)) hc

theorem mem_rests {p : Pattern} {s r : List Char} :
    r ∈ p.rests s ↔ ∃ w, Matches p w ∧ s = w ++ r := by
  induction p generalizing s r with
  | one accepts =>
    constructor
    · intro h
      cases s with
      | nil => simp [rests] at h
      | cons c t =>
        simp only [rests] at h
        split at h
        · next hc => exact ⟨[c], .one hc, by simp_all⟩
        · simp at h
    · rintro ⟨w, hw, rfl⟩
      cases hw with
      | one hc => simp [rests, hc]
  | nothing =>
    constructor
    · intro h
      exact ⟨[], .nothing, by simpa [rests] using Eq.symm (by simpa [rests] using h)⟩
    · rintro ⟨w, hw, rfl⟩
      cases hw
      simp [rests]
  | next p q ihp ihq =>
    simp only [rests, List.mem_flatMap, ihp, ihq]
    constructor
    · rintro ⟨t, ⟨u, hu, rfl⟩, v, hv, rfl⟩
      exact ⟨u ++ v, .next hu hv, by simp⟩
    · rintro ⟨w, hw, rfl⟩
      cases hw with
      | next hu hv => exact ⟨_, ⟨_, hu, List.append_assoc ..⟩, _, hv, rfl⟩
  | either p q ihp ihq =>
    simp only [rests, List.mem_append, ihp, ihq]
    constructor
    · rintro (⟨w, hw, rfl⟩ | ⟨w, hw, rfl⟩)
      · exact ⟨w, .first hw, rfl⟩
      · exact ⟨w, .second hw, rfl⟩
    · rintro ⟨w, hw, rfl⟩
      cases hw with
      | first h => exact .inl ⟨w, h, rfl⟩
      | second h => exact .inr ⟨w, h, rfl⟩
  | many accepts =>
    rw [rests, mem_restsOfMany]
    constructor
    · rintro ⟨w, hw, rfl⟩
      exact ⟨w, .many hw, rfl⟩
    · rintro ⟨w, hw, rfl⟩
      cases hw with
      | many h => exact ⟨w, h, rfl⟩

end Pattern

end LeakScan
