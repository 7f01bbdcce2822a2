import LeakScan.Proofs.Config.Timeout
import LeakScan.Proofs.Scan.Fold

namespace LeakScan

namespace Config

variable {c loaded : Config} {dirs extensions : List String}

/-- The known keys that settings do not name, with their usual values. -/
def missing (c : Config) : List (Value × Value) :=
  (defaultEntries.filter fun e => (c.get? e.1).isNone).map fun e => (.str e.1, e.2)

theorem entries_foldl_setDefault {l : List (String × Value)} (hl : (l.map (·.1)).Nodup) :
    (l.foldl (fun c e => c.setDefault e.1 e.2) c).entries =
      c.entries ++ (l.filter fun e => (c.get? e.1).isNone).map fun e => (.str e.1, e.2) := by
  induction l generalizing c with
  | nil => simp
  | cons e l ih =>
    obtain ⟨key, v⟩ := e
    rw [List.map_cons, List.nodup_cons] at hl
    rw [List.foldl_cons, ih hl.2]
    cases hkey : c.get? key with
    | some w =>
      have hkept : c.setDefault key v = c := by simp [setDefault, hkey]
      simp [hkept, hkey]
    | none =>
      have hadded : (c.setDefault key v).entries = c.entries ++ [(.str key, v)] := by
        simp [setDefault, hkey]
      -- The key that was added is none of those that follow.
      have hothers (e : String × Value) (he : e ∈ l) :
          ((c.setDefault key v).get? e.1).isNone = (c.get? e.1).isNone := by
        have hne : key ≠ e.1 := fun heq => hl.1 (List.mem_map.2 ⟨e, he, heq.symm⟩)
        rw [get?_setDefault, if_neg hne, Option.or_none]
      rw [List.filter_congr hothers, hadded]
      simp [hkey]

theorem entries_fill (c : Config) : c.fill.entries = c.entries ++ c.missing :=
  entries_foldl_setDefault (by decide)

theorem missing_fill (c : Config) : c.fill.missing = [] := by
  have hknown : ∀ e ∈ defaultEntries, (defaultEntries.lookup e.1).isNone = false := by decide
  rw [missing, List.map_eq_nil_iff, List.filter_eq_nil_iff]
  intro e he
  rw [get?_fill, Option.isNone_or, hknown e he, Bool.and_false]
  exact Bool.false_ne_true

theorem eq_of_entries {c c' : Config} (h : c.entries = c'.entries) : c = c' := by
  cases c
  cases c'
  exact congrArg Config.mk h

theorem fill_fill (c : Config) : c.fill.fill = c.fill :=
  eq_of_entries (by rw [entries_fill, missing_fill, List.append_nil])

structure Sound (c : Config) : Prop where
  dirs : ∃ ss, c.get? "skip_dirs" = some (strings ss)
  extensions : ∃ ss, c.get? "skip_extensions" = some (strings ss)
  broad : ∃ b, c.get? "broad_patterns" = some (.bool b)
  timeout : ∃ v, c.get? timeoutKey = some v ∧ (v.IsPositive ∨ v = .real .nan)

/-- The fault lies with what the settings have for the key that it tells of. -/
def Fault.Blames (c : Config) : Fault → Prop
  | notStrings key => ∀ ss, c.get? key ≠ some (strings ss)
  | notBool => ∀ b, c.get? "broad_patterns" ≠ some (.bool b)
  | badTimeout => ∀ v, c.get? timeoutKey = some v → ¬ (v.IsPositive ∨ v = .real .nan)

theorem isStringList_iff {v : Option Value} :
    isStringList v = true ↔ ∃ ss, v = some (strings ss) := by
  refine ⟨exists_strings, ?_⟩
  rintro ⟨ss, rfl⟩
  simp [isStringList, strings, Value.str?]

theorem isBool_iff {v : Option Value} : isBool v = true ↔ ∃ b, v = some (.bool b) := by
  unfold isBool
  split
  · simp
  · next hno => simpa using hno

theorem fault?_eq_none_iff_sound : c.fault? = none ↔ c.Sound := by
  rw [fault?_eq_none_iff]
  constructor
  · rintro ⟨hdirs, hextensions, hbroad, htimeout⟩
    exact ⟨isStringList_iff.1 hdirs, isStringList_iff.1 hextensions, isBool_iff.1 hbroad,
      exists_of_isTimeout htimeout⟩
  · rintro ⟨hdirs, hextensions, hbroad, v, hv, hpasses⟩
    refine ⟨isStringList_iff.2 hdirs, isStringList_iff.2 hextensions, isBool_iff.2 hbroad, ?_⟩
    rw [hv]
    exact isTimeout_iff.2 hpasses

theorem blames_of_fault? {f : Fault} (h : c.fault? = some f) : f.Blames c := by
  have hstrings {key : String} (hno : (!isStringList (c.get? key)) = true) :
      (Fault.notStrings key).Blames c := by
    intro ss hss
    simp [isStringList_iff.2 ⟨ss, hss⟩] at hno
  unfold fault? at h
  split at h
  · next hdirs => exact Option.some.inj h ▸ hstrings hdirs
  · split at h
    · next hextensions => exact Option.some.inj h ▸ hstrings hextensions
    · split at h
      · next hbroad =>
        obtain rfl := Option.some.inj h
        intro b hb
        simp [isBool_iff.2 ⟨b, hb⟩] at hbroad
      · split at h
        · next htimeout =>
          obtain rfl := Option.some.inj h
          intro v hv hpasses
          simp [hv, isTimeout_iff.2 hpasses] at htimeout
        · cases h

theorem validate_eq_ok_iff_sound : validate c = .ok c.fill ↔ c.fill.Sound := by
  rw [validate_eq_ok_iff, ← fault?_eq_none_iff_sound]
  exact and_iff_left rfl

theorem validate_of_not_sound (h : ¬ c.fill.Sound) :
    ∃ f, validate c = .error f ∧ f.Blames c.fill := by
  unfold validate
  cases hfault : c.fill.fault? with
  | none => exact absurd (fault?_eq_none_iff_sound.1 hfault) h
  | some f => exact ⟨f, rfl, blames_of_fault? hfault⟩

theorem Sound.mode_eq_strict_iff (h : c.Sound) :
    c.mode = .strict ↔ c.get? "broad_patterns" = some (.bool false) := by
  obtain ⟨b, hb⟩ := h.broad
  rw [mode, hb]
  cases b <;> simp [Value.truthy]

theorem build_false_ne_build_true : Catalog.build false ≠ Catalog.build true := fun h =>
  absurd (congrArg (·.secrets.length) h) (by decide)

theorem Sound.ofMode_eq_build_iff (h : c.Sound) (b : Bool) :
    Catalog.ofMode c.mode = Catalog.build b ↔ c.get? "broad_patterns" = some (.bool b) := by
  obtain ⟨choice, hchoice⟩ := h.broad
  have hbuilt : Catalog.ofMode c.mode = Catalog.build choice := by
    rw [mode, hchoice]
    cases choice <;> rfl
  rw [hbuilt, hchoice, Option.some.injEq, Value.bool.injEq]
  refine ⟨fun hsame => ?_, congrArg Catalog.build⟩
  cases choice with
  | false =>
    cases b with
    | false => rfl
    | true => exact absurd hsame build_false_ne_build_true
  | true =>
    cases b with
    | false => exact absurd hsame.symm build_false_ne_build_true
    | true => rfl

theorem not_skips_of_ok {disk : Disk} {given : String} {config : Option Config} {clock : Clock}
    {skips : Skips} (hskips : (orDefault config).skips = .ok skips) (f : SkipFault) :
    (scanDirectory disk given config clock).result ≠ .error (.skips f) := by
  intro hfailed
  cases hroot : (validateDirectory disk given).result with
  | error e =>
    rw [result_scanDirectory, hroot] at hfailed
    obtain rfl : e = .skips f := Except.error.inj hfailed
    cases rootEnding_iff.2 hroot
  | ok root =>
    rw [result_of_valid hroot hskips] at hfailed
    unfold reportWalk at hfailed
    split at hfailed <;> cases hfailed

/-- Filling keeps all that settings say, whatever it is, and adds the known keys that they do not
name with their usual values, so that nothing is left to fill. The check lets filled settings pass
exactly if the skip lists are lists of texts, the choice of catalog is a truth value and the time
limit is good, and else blames a key that is at fault. With settings that pass, every scan walks
under the two lists, none fails for them, and the catalog without the broad patterns is used exactly
if the choice is no. -/
theorem checked_settings_serve :
    (∀ c : Config, c.fill.entries = c.entries ++ c.missing ∧ c.fill.fill = c.fill) ∧
    (∀ c : Config, (validate c = .ok c.fill ↔ c.fill.Sound) ∧
      (¬ c.fill.Sound → ∃ f, validate c = .error f ∧ f.Blames c.fill)) ∧
    ∀ c loaded : Config, validate c = .ok loaded → loaded = c.fill ∧
      (∃ dirs extensions, loaded.get? "skip_dirs" = some (strings dirs) ∧
        loaded.get? "skip_extensions" = some (strings extensions) ∧
        loaded.skips = .ok ⟨dirs, extensions.map Text.lower⟩ ∧
        ∀ (disk : Disk) (given : String) (clock : Clock),
          (∀ f, (scanDirectory disk given (some loaded) clock).result ≠ .error (.skips f)) ∧
          ∀ root, (validateDirectory disk given).result = .ok root →
            (scanDirectory disk given (some loaded) clock).result =
              reportWalk (Catalog.ofMode loaded.mode) root clock
                (walk disk ⟨dirs, extensions.map Text.lower⟩ root)) ∧
      (loaded.mode = .strict ↔ loaded.get? "broad_patterns" = some (.bool false)) ∧
      ∀ b, Catalog.ofMode loaded.mode = Catalog.build b ↔
        loaded.get? "broad_patterns" = some (.bool b) := by
  refine ⟨fun c => ⟨entries_fill c, fill_fill c⟩,
    fun c => ⟨validate_eq_ok_iff_sound, validate_of_not_sound⟩, fun c loaded h => ?_⟩
  obtain ⟨hfault, hloaded⟩ := validate_eq_ok_iff.1 h
  rw [← hloaded] at hfault
  have hsound := fault?_eq_none_iff_sound.1 hfault
  obtain ⟨dirs, hdirs⟩ := hsound.dirs
  obtain ⟨extensions, hextensions⟩ := hsound.extensions
  have hskips := skips_of_strings hdirs hextensions
  have hdefault := orDefault_of_fault? hfault
  have hused : (orDefault (some loaded)).skips = .ok (.ofStrings dirs extensions) := by
    rw [hdefault, hskips]
  refine ⟨hloaded, ⟨dirs, extensions, hdirs, hextensions, hskips, fun disk given clock =>
    ⟨not_skips_of_ok hused, fun root hroot => ?_⟩⟩, hsound.mode_eq_strict_iff,
    hsound.ofMode_eq_build_iff⟩
  rw [result_of_valid hroot hused, hdefault]
  rfl

/-- Settings with a key that is not known, whose value is null, and the broad patterns left out. -/
def narrowChoice : Config := ⟨[(.str "owner", .null), (.str "broad_patterns", .bool false)]⟩

theorem checked_settings_serve_narrow :
    narrowChoice.fill.entries = narrowChoice.entries ++
      [(.str "skip_dirs", strings defaultSkipDirs),
        (.str "skip_extensions", strings defaultSkipExtensions),
        (.str "request_timeout", defaultTimeout), (.str "user_agent", .str "KeyHunter/1.0.0")] ∧
    validate narrowChoice = .ok narrowChoice.fill ∧ narrowChoice.fill.mode = .strict ∧
    Catalog.ofMode narrowChoice.fill.mode = Catalog.build false ∧
    Catalog.ofMode narrowChoice.fill.mode ≠ Catalog.build true ∧
    ∃ f, validate (narrowChoice.set "skip_dirs" .null) = .error f := by
  obtain ⟨hfilled, hchecked, hserve⟩ := checked_settings_serve
  have hpasses : validate narrowChoice = .ok narrowChoice.fill := rfl
  obtain ⟨-, -, hmode, hcatalog⟩ := hserve narrowChoice narrowChoice.fill hpasses
  refine ⟨(hfilled narrowChoice).1, hpasses, hmode.2 rfl, (hcatalog false).2 rfl,
    mt (hcatalog true).1 nofun, ?_⟩
  obtain ⟨f, hf, -⟩ := (hchecked (narrowChoice.set "skip_dirs" .null)).2 fun hsound => by
    obtain ⟨ss, hss⟩ := hsound.dirs
    rw [get?_fill_set] at hss
    cases hss
  exact ⟨f, hf⟩

end Config

end LeakScan
