import LeakScan.Config.Load

namespace LeakScan.Config

/-- The skip lists that two lists of texts stand for: the extensions in small letters. -/
def Skips.ofStrings (dirs extensions : List String) : Skips := ⟨dirs, extensions.map Text.lower⟩

def Skips.default : Skips := .ofStrings defaultSkipDirs defaultSkipExtensions

theorem namesOf_strings (ss : List String) : namesOf (ss.map .str) = .ok ss := by
  induction ss with
  | nil => rfl
  | cons s ss ih => simp [namesOf, ih, Value.isKey, Value.str?]

theorem extensionsOf_strings (ss : List String) :
    extensionsOf (ss.map .str) = .ok (ss.map Text.lower) := by
  induction ss with
  | nil => rfl
  | cons s ss ih => simp [extensionsOf, ih]

theorem skipsOf_strings (dirs extensions : List String) :
    skipsOf (some (strings dirs)) (some (strings extensions)) =
      .ok (Skips.ofStrings dirs extensions) := by
  simp [skipsOf, orStrings, strings, members?, namesOf_strings, extensionsOf_strings,
    Skips.ofStrings]

theorem skips_of_strings {c : Config} {dirs extensions : List String}
    (hdirs : c.get? "skip_dirs" = some (strings dirs))
    (hextensions : c.get? "skip_extensions" = some (strings extensions)) :
    c.skips = .ok (.ofStrings dirs extensions) := by
  rw [skips, hdirs, hextensions, skipsOf_strings]

theorem exists_strings_of_all {items : List Value} (h : ∀ v ∈ items, v.str?.isSome = true) :
    ∃ ss : List String, items = ss.map .str := by
  induction items with
  | nil => exact ⟨[], rfl⟩
  | cons item items ih =>
    obtain ⟨ss, rfl⟩ := ih fun v hv => h v (List.mem_cons_of_mem _ hv)
    cases item with
    | str s => exact ⟨s :: ss, rfl⟩
    | _ => exact absurd (h _ List.mem_cons_self) (by simp [Value.str?])

theorem exists_strings {v : Option Value} (h : isStringList v = true) :
    ∃ ss, v = some (strings ss) := by
  unfold isStringList at h
  split at h
  · next items =>
    obtain ⟨ss, rfl⟩ := exists_strings_of_all (List.all_eq_true.1 h)
    exact ⟨ss, rfl⟩
  · simp at h

theorem skips_of_fault? {c : Config} (h : c.fault? = none) :
    ∃ dirs extensions, c.skips = .ok (Skips.ofStrings dirs extensions) := by
  unfold fault? at h
  split at h
  · simp at h
  · next hdirs =>
    split at h
    · simp at h
    · next hexts =>
      obtain ⟨dirs, hd⟩ := exists_strings (by simpa using hdirs)
      obtain ⟨extensions, he⟩ := exists_strings (by simpa using hexts)
      exact ⟨dirs, extensions, skips_of_strings hd he⟩

theorem orDefault_of_fault? {c : Config} (h : c.fault? = none) : orDefault (some c) = c := by
  obtain ⟨entries⟩ := c
  cases entries with
  | nil => simp [fault?, get?, isStringList] at h
  | cons e entries => rfl

theorem fault?_of_validate {c loaded : Config} (h : validate c = .ok loaded) :
    loaded.fault? = none := by
  unfold validate at h
  split at h
  · simp at h
  · next hfault =>
    obtain rfl := Except.ok.inj h
    exact hfault

theorem fault?_of_ofFile {disk : Disk} {path : String} {c : Config} (h : ofFile disk path = .ok c) :
    c.fault? = none := by
  have hvalid {settings : Config} (hv : (validate settings).mapError FileFault.settings = .ok c) :
      c.fault? = none := by
    cases hs : validate settings with
    | error f => rw [hs] at hv; cases hv
    | ok loaded =>
      rw [hs] at hv
      obtain rfl := Except.ok.inj hv
      exact fault?_of_validate hs
  unfold ofFile at h
  split at h
  · simp at h
  · unfold ofBytes ofSource at h
    split at h
    · simp at h
    · unfold ofDocument at h
      split at h
      · exact hvalid h
      · exact hvalid h
      · simp at h

theorem fault?_of_loadFile {disk : Disk} {path : String} {c : Config}
    (h : (loadFile disk path).result = .ok c) : c.fault? = none := by
  unfold loadFile at h
  split at h
  · simp [Noted.fail] at h
  · next hfile =>
    obtain rfl := Except.ok.inj h
    exact fault?_of_ofFile hfile

theorem skips_default : default.skips = .ok Skips.default := skipsOf_strings _ _

theorem fault?_default : default.fault? = none := by decide

theorem fault?_of_load {disk : Disk} {given : Option String} {root : String} {c : Config}
    (h : (load disk given root).result = .ok c) : c.fault? = none := by
  have hfound (h : (loadFound disk root).result = .ok c) : c.fault? = none := by
    unfold loadFound at h
    split at h
    · simp [Noted.fail] at h
    · split at h
      · simp [Noted.fail] at h
      · exact fault?_of_loadFile h
      · obtain rfl := Except.ok.inj h
        exact fault?_default
  unfold load at h
  split at h
  · exact hfound h
  · split at h
    · exact hfound h
    · unfold loadGiven at h
      split at h
      · simp [Noted.fail] at h
      · simp [Noted.fail] at h
      · simp only at h
        split at h
        · simp [Noted.fail] at h
        · simp [Noted.fail] at h
        · exact fault?_of_loadFile h

theorem skips_orDefault {source : Disk} {path : Option String} {place : String} {config : Config}
    (h : (load source path place).result = .ok config) :
    ∃ dirs extensions, (orDefault (some config)).skips = .ok (.ofStrings dirs extensions) := by
  have hfault := fault?_of_load h
  rw [orDefault_of_fault? hfault]
  exact skips_of_fault? hfault

end LeakScan.Config
