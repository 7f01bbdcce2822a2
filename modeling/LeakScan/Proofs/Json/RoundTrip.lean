import LeakScan.Proofs.Json.Tokens

namespace LeakScan.Json

open Text (Code)

mutual

/-- Whether a value has no reals and keeps within limits with `depth` brackets around it. -/
def fits (limits : Limits) (depth : Nat) : Json → Bool
  | .real _ => false
  | .int n => !exceeds limits.digits (Nat.toDigits 10 n.natAbs).length
  | .arr vs => !exceeds limits.depth (depth + 1) && itemsFit limits (depth + 1) vs
  | .obj ms => !exceeds limits.depth (depth + 1) && membersFit limits (depth + 1) ms
  | _ => true

def itemsFit (limits : Limits) (depth : Nat) : List Json → Bool
  | [] => true
  | v :: vs => fits limits depth v && itemsFit limits depth vs

def membersFit (limits : Limits) (depth : Nat) : List (String × Json) → Bool
  | [] => true
  | (_, v) :: ms => fits limits depth v && membersFit limits depth ms

end

mutual

theorem toJson_ofJson : (v : Json) → (Raw.ofJson v).toJson = v
  | .null => rfl
  | .bool _ => rfl
  | .int _ => rfl
  | .real _ => rfl
  | .str s => by simp [Raw.ofJson, Raw.ofString, Raw.toJson]
  | .arr vs => by rw [Raw.ofJson, Raw.toJson, itemsJson_ofItems vs]
  | .obj ms => by rw [Raw.ofJson, Raw.toJson, membersJson_ofMembers ms]

theorem itemsJson_ofItems : (vs : List Json) → Raw.itemsJson (Raw.ofItems vs) = vs
  | [] => rfl
  | v :: vs => by rw [Raw.ofItems, Raw.itemsJson, toJson_ofJson v, itemsJson_ofItems vs]

theorem membersJson_ofMembers : (ms : List (String × Json)) →
    Raw.membersJson (Raw.ofMembers ms) = ms
  | [] => rfl
  | (k, v) :: ms => by
    rw [Raw.ofMembers, Raw.membersJson, toJson_ofJson v, membersJson_ofMembers ms,
      Raw.plain_ofChars, String.ofList_toList]

end

variable {rest : List Code} {limits : Limits}

theorem skipBlanks_cons {c : Char} (h : isBlank c = false) :
    skipBlanks (.char c :: rest) = .char c :: rest := by
  simp [skipBlanks, Code.char?, h]

theorem skipBlanks_append {bs : List Char} (h : ∀ b ∈ bs, isBlank b = true) :
    skipBlanks (Code.ofChars bs ++ rest) = skipBlanks rest := by
  induction bs with
  | nil => rfl
  | cons b bs ih =>
    have hb := h b List.mem_cons_self
    show skipBlanks (.char b :: (Code.ofChars bs ++ rest)) = _
    rw [skipBlanks, List.dropWhile_cons_of_pos (by simpa [Code.char?] using hb)]
    exact ih fun c hc => h c (List.mem_cons_of_mem _ hc)

theorem isBlank_lineBreak (level : Nat) : ∀ b ∈ lineBreak level, isBlank b = true := by
  simp [lineBreak, isBlank]

theorem stops_lineBreak (level : Nat) : Stops (Code.ofChars (lineBreak level) ++ rest) :=
  .inr ⟨'\n', rfl, rfl⟩

theorem word?_intChars (i : Int) (rest : List Code) :
    word? (Code.ofChars (intChars i) ++ rest) = none := by
  obtain ⟨c, ds, hds, hdigit, hminus, -⟩ := toDigits_unsigned i.natAbs
  have hne (a : Char) (ha : a.isDigit = false) : ¬ a = c := by
    rintro rfl
    simp [ha] at hdigit
  rw [intChars_eq, hds, minus]
  split
  · simp [word?, words, hne 'I' rfl]
  · simp [word?, words, hne 'n' rfl, hne 't' rfl, hne 'f' rfl, hne 'N' rfl,
      hne 'I' rfl, hne '-' rfl]

theorem value_null (fuel depth : Nat) :
    value limits (fuel + 1) depth (Code.ofChars "null".toList ++ rest) = .ok (.null, rest) := rfl

theorem value_bool (fuel depth level : Nat) (b : Bool) :
    value limits (fuel + 1) depth (Code.ofChars (chars level (.bool b)) ++ rest) =
      .ok (.bool b, rest) := by
  cases b <;> rfl

theorem value_int (fuel depth : Nat) {i : Int} (hrest : Stops rest)
    (hlimit : exceeds limits.digits (Nat.toDigits 10 i.natAbs).length = false) :
    value limits (fuel + 1) depth (Code.ofChars (intChars i) ++ rest) = .ok (.int i, rest) := by
  have hword := word?_intChars i rest
  have hnumber := number_intChars hrest hlimit
  obtain ⟨c, r, hc, hdigit⟩ : ∃ c r, Code.ofChars (intChars i) ++ rest = .char c :: r ∧
      (c = '-' ∨ c.isDigit = true) := by
    obtain ⟨c, ds, hds, hdigit, -⟩ := toDigits_unsigned i.natAbs
    rw [intChars_eq, hds, minus]
    split
    · exact ⟨_, _, rfl, .inl rfl⟩
    · exact ⟨_, _, rfl, .inr hdigit⟩
  have hne (a : Char) (ha : a.isDigit = false) (hminus : a ≠ '-') : ¬ c = a := by
    rintro rfl
    simp [ha, hminus] at hdigit
  rw [hc] at hword hnumber ⊢
  rw [value]
  · rw [hword]
    exact hnumber
  · simp [hne '"' rfl (by decide)]
  · simp [hne '[' rfl (by decide)]
  · simp [hne '\x7b' rfl (by decide)]

theorem value_str (fuel depth : Nat) (s : String) (rest : List Code) :
    value limits (fuel + 1) depth (Code.ofChars (stringChars s) ++ rest) =
      .ok (.ofString s, rest) := by
  have hquoted := quotedText_of_escaped s.toList rest
  have hchars : Code.ofChars (stringChars s) ++ rest =
      .char '"' :: (Code.ofChars (s.toList.flatMap escapeChar) ++ .char '"' :: rest) := by
    simp [stringChars]
  rw [hchars, value, hquoted]
  rfl

def Solid (s : List Code) : Prop := ∃ c t, s = .char c :: t ∧ isBlank c = false ∧ c ≠ ']'

theorem Solid.skipBlanks {s : List Code} (hs : Solid s) (level : Nat) :
    Json.skipBlanks (Code.ofChars (lineBreak level) ++ s) = s := by
  obtain ⟨c, t, rfl, hc, -⟩ := hs
  rw [skipBlanks_append (isBlank_lineBreak level), skipBlanks_cons hc]

theorem solid_chars {v : Json} {depth : Nat} (hfits : fits limits depth v = true) (level : Nat)
    (rest : List Code) : Solid (Code.ofChars (chars level v) ++ rest) := by
  cases v with
  | null => exact ⟨_, _, rfl, rfl, by decide⟩
  | bool b => cases b <;> exact ⟨_, _, rfl, rfl, by decide⟩
  | real x => simp [fits] at hfits
  | str s => exact ⟨_, _, rfl, rfl, by decide⟩
  | arr vs => cases vs <;> exact ⟨_, _, rfl, rfl, by decide⟩
  | obj ms =>
    cases ms with
    | nil => exact ⟨_, _, rfl, rfl, by decide⟩
    | cons m ms => exact ⟨_, _, rfl, rfl, by decide⟩
  | int i =>
    obtain ⟨c, ds, hds, hdigit, -⟩ := toDigits_unsigned i.natAbs
    have hne (a : Char) (ha : a.isDigit = false) : c ≠ a := by
      rintro rfl
      simp [ha] at hdigit
    rw [chars, intChars_eq, hds, minus]
    split
    · exact ⟨_, _, rfl, rfl, by decide⟩
    · exact ⟨_, _, rfl, by simp [isBlank, hne], hne ']' rfl⟩

theorem length_chars_pos {v : Json} {depth : Nat} (hfits : fits limits depth v = true)
    (level : Nat) : 0 < (chars level v).length := by
  obtain ⟨c, t, h, -⟩ := solid_chars hfits level []
  cases hv : chars level v with
  | nil => simp [hv] at h
  | cons a r => simp

variable {fuel depth level : Nat} {k : String} {v : Raw} {s t : List Code}

theorem value_empty_list (hdepth : exceeds limits.depth (depth + 1) = false) :
    value limits (fuel + 1) depth (Code.ofChars (chars level (.arr [])) ++ rest) =
      .ok (.list [], rest) := by
  show value limits (fuel + 1) depth (.char '[' :: .char ']' :: rest) = _
  rw [value, hdepth, skipBlanks_cons rfl]
  rfl

theorem value_empty_record (hdepth : exceeds limits.depth (depth + 1) = false) :
    value limits (fuel + 1) depth (Code.ofChars (chars level (.obj [])) ++ rest) =
      .ok (.record [], rest) := by
  show value limits (fuel + 1) depth (.char '\x7b' :: .char '\x7d' :: rest) = _
  rw [value, hdepth, skipBlanks_cons rfl]
  rfl

theorem value_open_list (hdepth : exceeds limits.depth (depth + 1) = false) (hs : Solid s) :
    value limits (fuel + 1) depth (.char '[' :: (Code.ofChars (lineBreak level) ++ s)) =
      (items limits fuel (depth + 1) s).map fun p => (.list p.1, p.2) := by
  rw [value, hdepth, hs.skipBlanks level]
  obtain ⟨c, t, rfl, -, hclose⟩ := hs
  simp [hclose]

theorem items_last (hv : value limits fuel depth s =
      .ok (v, Code.ofChars (lineBreak level) ++ .char ']' :: rest)) :
    items limits (fuel + 1) depth s = .ok ([v], rest) := by
  rw [items, hv]
  simp only [skipBlanks_append (isBlank_lineBreak level), skipBlanks_cons (c := ']') rfl]

theorem items_more (ht : Solid t) (hv : value limits fuel depth s =
      .ok (v, .char ',' :: (Code.ofChars (lineBreak level) ++ t))) :
    items limits (fuel + 1) depth s =
      (items limits fuel depth t).map fun p => (v :: p.1, p.2) := by
  rw [items, hv]
  simp only [skipBlanks_cons (c := ',') rfl, ht.skipBlanks level]

def nameChars (k : String) : List Char := stringChars k ++ ": ".toList

theorem quotedText_nameChars (k : String) (s : List Code) :
    ∃ t, Code.ofChars (nameChars k) ++ s = .char '"' :: t ∧
      quotedText t = .ok (Code.ofChars k.toList, .char ':' :: .char ' ' :: s) := by
  refine ⟨_, ?_, quotedText_of_escaped k.toList (.char ':' :: .char ' ' :: s)⟩
  simp [nameChars, stringChars]

theorem solid_nameChars (k : String) (s : List Code) : Solid (Code.ofChars (nameChars k) ++ s) :=
  ⟨_, _, rfl, rfl, by decide⟩

theorem value_open_record (hdepth : exceeds limits.depth (depth + 1) = false) :
    value limits (fuel + 1) depth
        (.char '\x7b' :: (Code.ofChars (lineBreak level) ++ (Code.ofChars (nameChars k) ++ s))) =
      (members limits fuel (depth + 1) (Code.ofChars (nameChars k) ++ s)).map fun p =>
        (.record p.1, p.2) := by
  obtain ⟨t, hname, -⟩ := quotedText_nameChars k s
  rw [value, hdepth, (solid_nameChars k s).skipBlanks level, hname]
  simp

theorem skipBlanks_after_colon (hs : Solid s) : skipBlanks (.char ' ' :: s) = s := by
  obtain ⟨c, t, rfl, hc, -⟩ := hs
  have hblank : ∀ b ∈ [' '], isBlank b = true := by simp [isBlank]
  exact (skipBlanks_append hblank).trans (skipBlanks_cons hc)

theorem members_last (hs : Solid s) (hv : value limits fuel depth s =
      .ok (v, Code.ofChars (lineBreak level) ++ .char '\x7d' :: rest)) :
    members limits (fuel + 1) depth (Code.ofChars (nameChars k) ++ s) =
      .ok ([(Code.ofChars k.toList, v)], rest) := by
  obtain ⟨t, hname, hquoted⟩ := quotedText_nameChars k s
  rw [hname, members, hquoted]
  simp only [skipBlanks_cons (c := ':') rfl, skipBlanks_after_colon hs, hv,
    skipBlanks_append (isBlank_lineBreak level), skipBlanks_cons (c := '\x7d') rfl]

theorem members_more (hs : Solid s) (ht : Solid t) (hv : value limits fuel depth s =
      .ok (v, .char ',' :: (Code.ofChars (lineBreak level) ++ t))) :
    members limits (fuel + 1) depth (Code.ofChars (nameChars k) ++ s) =
      (members limits fuel depth t).map fun p => ((Code.ofChars k.toList, v) :: p.1, p.2) := by
  obtain ⟨u, hname, hquoted⟩ := quotedText_nameChars k s
  rw [hname, members, hquoted]
  simp only [skipBlanks_cons (c := ':') rfl, skipBlanks_after_colon hs, hv,
    skipBlanks_cons (c := ',') rfl, ht.skipBlanks level]

def closing (level : Nat) (bracket : Char) (rest : List Code) : List Code :=
  Code.ofChars (lineBreak level) ++ .char bracket :: rest

theorem chars_list (level : Nat) (v : Json) (vs : List Json) (rest : List Code) :
    Code.ofChars (chars level (.arr (v :: vs))) ++ rest =
      .char '[' :: (Code.ofChars (lineBreak (level + 1)) ++ (Code.ofChars (chars (level + 1) v) ++
        (Code.ofChars (itemsChars (level + 1) vs) ++ closing level ']' rest))) := by
  simp [chars, closing]

theorem chars_record (level : Nat) (k : String) (v : Json) (ms : List (String × Json))
    (rest : List Code) :
    Code.ofChars (chars level (.obj ((k, v) :: ms))) ++ rest =
      .char '\x7b' :: (Code.ofChars (lineBreak (level + 1)) ++ (Code.ofChars (nameChars k) ++
        (Code.ofChars (chars (level + 1) v) ++
          (Code.ofChars (membersChars (level + 1) ms) ++ closing level '\x7d' rest)))) := by
  simp [chars, nameChars, closing]

theorem itemsChars_more (level : Nat) (v : Json) (vs : List Json) (rest : List Code) :
    Code.ofChars (itemsChars level (v :: vs)) ++ rest =
      .char ',' :: (Code.ofChars (lineBreak level) ++ (Code.ofChars (chars level v) ++
        (Code.ofChars (itemsChars level vs) ++ rest))) := by
  simp [itemsChars]

theorem membersChars_more (level : Nat) (k : String) (v : Json) (ms : List (String × Json))
    (rest : List Code) :
    Code.ofChars (membersChars level ((k, v) :: ms)) ++ rest =
      .char ',' :: (Code.ofChars (lineBreak level) ++ (Code.ofChars (nameChars k) ++
        (Code.ofChars (chars level v) ++ (Code.ofChars (membersChars level ms) ++ rest)))) := by
  simp [membersChars, nameChars]

mutual

theorem value_chars (fuel depth level : Nat) (rest : List Code) : (v : Json) →
    fits limits depth v = true → Stops rest → 2 * (chars level v).length ≤ fuel + 1 →
    value limits (fuel + 1) depth (Code.ofChars (chars level v) ++ rest) =
      .ok (Raw.ofJson v, rest)
  | .null, _, _, _ => value_null fuel depth
  | .bool b, _, _, _ => value_bool fuel depth level b
  | .int i, hfits, hrest, _ => value_int fuel depth hrest (by simpa [fits] using hfits)
  | .real x, hfits, _, _ => by simp [fits] at hfits
  | .str s, _, _, _ => value_str fuel depth s rest
  | .arr [], hfits, _, _ => value_empty_list (by simpa [fits, itemsFit] using hfits)
  | .arr (v :: vs), hfits, _, hfuel => by
    rw [fits, Bool.and_eq_true, Bool.not_eq_true'] at hfits
    obtain ⟨hdepth, hitems⟩ := hfits
    have hv := (Bool.and_eq_true_iff.1 hitems).1
    simp only [chars, List.length_append, List.length_cons] at hfuel
    -- The two characters of the brackets pay for the step into the list and that of its items.
    obtain ⟨fuel, rfl⟩ : ∃ f, fuel = f + 1 := Nat.exists_eq_succ_of_ne_zero (by omega)
    rw [chars_list, value_open_list hdepth (solid_chars hv _ _),
      items_chars fuel (depth + 1) (level + 1) level rest v vs hitems (by omega)]
    rfl
  | .obj [], hfits, _, _ => value_empty_record (by simpa [fits, membersFit] using hfits)
  | .obj ((k, v) :: ms), hfits, _, hfuel => by
    rw [fits, Bool.and_eq_true, Bool.not_eq_true'] at hfits
    obtain ⟨hdepth, hmembers⟩ := hfits
    simp only [chars, List.length_append, List.length_cons] at hfuel
    obtain ⟨fuel, rfl⟩ : ∃ f, fuel = f + 1 := Nat.exists_eq_succ_of_ne_zero (by omega)
    rw [chars_record, value_open_record hdepth,
      members_chars fuel (depth + 1) (level + 1) level rest k v ms hmembers (by omega)]
    rfl
termination_by v => sizeOf v

theorem items_chars (fuel depth level out : Nat) (rest : List Code) (v : Json) :
    (vs : List Json) → itemsFit limits depth (v :: vs) = true →
    2 * ((chars level v).length + (itemsChars level vs).length) ≤ fuel →
    items limits (fuel + 1) depth (Code.ofChars (chars level v) ++
        (Code.ofChars (itemsChars level vs) ++ closing out ']' rest)) =
      .ok (Raw.ofItems (v :: vs), rest)
  | [], hfits, hfuel => by
    rw [itemsFit, Bool.and_eq_true] at hfits
    have hpos := length_chars_pos hfits.1 level
    obtain ⟨fuel, rfl⟩ : ∃ f, fuel = f + 1 := Nat.exists_eq_succ_of_ne_zero (by omega)
    exact items_last (value_chars fuel depth level _ v hfits.1 (stops_lineBreak out) (by omega))
  | w :: vs, hfits, hfuel => by
    rw [itemsFit, Bool.and_eq_true] at hfits
    obtain ⟨hv, hvs⟩ := hfits
    have hw := (Bool.and_eq_true_iff.1 hvs).1
    simp only [itemsChars, List.length_append, List.length_cons] at hfuel
    obtain ⟨fuel, rfl⟩ : ∃ f, fuel = f + 1 := Nat.exists_eq_succ_of_ne_zero (by omega)
    rw [itemsChars_more, items_more (solid_chars hw level _)
        (value_chars fuel depth level _ v hv (.inl rfl) (by omega)),
      items_chars fuel depth level out rest w vs hvs (by omega)]
    rfl
termination_by vs => sizeOf (v :: vs)

theorem members_chars (fuel depth level out : Nat) (rest : List Code) (k : String) (v : Json) :
    (ms : List (String × Json)) → membersFit limits depth ((k, v) :: ms) = true →
    2 * ((chars level v).length + (membersChars level ms).length) ≤ fuel →
    members limits (fuel + 1) depth (Code.ofChars (nameChars k) ++ (Code.ofChars (chars level v) ++
        (Code.ofChars (membersChars level ms) ++ closing out '\x7d' rest))) =
      .ok (Raw.ofMembers ((k, v) :: ms), rest)
  | [], hfits, hfuel => by
    rw [membersFit, Bool.and_eq_true] at hfits
    have hpos := length_chars_pos hfits.1 level
    obtain ⟨fuel, rfl⟩ : ∃ f, fuel = f + 1 := Nat.exists_eq_succ_of_ne_zero (by omega)
    exact members_last (solid_chars hfits.1 level _)
      (value_chars fuel depth level _ v hfits.1 (stops_lineBreak out) (by omega))
  | (l, w) :: ms, hfits, hfuel => by
    rw [membersFit, Bool.and_eq_true] at hfits
    obtain ⟨hv, hms⟩ := hfits
    simp only [membersChars, List.length_append, List.length_cons] at hfuel
    obtain ⟨fuel, rfl⟩ : ∃ f, fuel = f + 1 := Nat.exists_eq_succ_of_ne_zero (by omega)
    rw [membersChars_more, members_more (solid_chars hv level _) (solid_nameChars l _)
        (value_chars fuel depth level _ v hv (.inl rfl) (by omega)),
      members_chars fuel depth level out rest l w ms hms (by omega)]
    rfl
termination_by ms => sizeOf ((k, v) :: ms)

end

theorem read_chars {v : Json} (hfits : fits limits 0 v = true) {bs : List Char}
    (hbs : ∀ b ∈ bs, isBlank b = true) :
    read limits (Code.ofChars (chars 0 v ++ bs)) = .ok (Raw.ofJson v) := by
  have hrest : Stops (Code.ofChars bs) := by
    cases bs with
    | nil => trivial
    | cons b bs => exact .inr ⟨b, rfl, hbs b List.mem_cons_self⟩
  have hend : skipBlanks (Code.ofChars bs) = [] := by
    have h : skipBlanks (Code.ofChars bs ++ []) = skipBlanks [] := skipBlanks_append hbs
    rwa [List.append_nil] at h
  have hstart : skipBlanks (Code.ofChars (chars 0 v) ++ Code.ofChars bs) =
      Code.ofChars (chars 0 v) ++ Code.ofChars bs := by
    obtain ⟨c, t, hs, hc, -⟩ := solid_chars hfits 0 (Code.ofChars bs)
    rw [hs, skipBlanks_cons hc]
  have hlength : (chars 0 v).length ≤ (Code.ofChars (chars 0 v) ++ Code.ofChars bs).length := by
    simp [Code.ofChars]
  rw [read, Code.ofChars_append, hstart,
    value_chars _ 0 0 (Code.ofChars bs) v hfits hrest (by omega)]
  simp [hend]

theorem parse?_render {v : Json} (hfits : fits {} 0 v = true) {bs : List Char}
    (hbs : ∀ b ∈ bs, isBlank b = true) : parse? ((render v).toList ++ bs) = some v := by
  rw [parse?, render, String.toList_ofList, read_chars hfits hbs]
  exact congrArg some (toJson_ofJson v)

end LeakScan.Json
