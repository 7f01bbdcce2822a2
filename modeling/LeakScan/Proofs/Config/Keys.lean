import LeakScan.Scan.Page

namespace LeakScan

theorem Value.sameKey_str {v : Value} {s : String} : v.sameKey (.str s) = true ↔ v = .str s := by
  cases v <;> simp [sameKey, number?]

namespace Config

variable {c : Config} {key other : String} {v : Value}

@[simp] theorem get?_set_self (c : Config) (key : String) (v : Value) :
    (c.set key v).get? key = some v := by
  obtain ⟨entries⟩ := c
  unfold get? set
  induction entries with
  | nil => simp [Value.setKey, Value.sameKey]
  | cons e entries ih =>
    rw [Value.setKey]
    split
    · next hkey => simp [hkey]
    · next hkey => simpa [hkey] using ih

theorem get?_set_of_ne (h : other ≠ key) : (c.set key v).get? other = c.get? other := by
  obtain ⟨entries⟩ := c
  unfold get? set
  induction entries with
  | nil => simp [Value.setKey, Value.sameKey, h.symm]
  | cons e entries ih =>
    obtain ⟨k, w⟩ := e
    rw [Value.setKey]
    split
    · next hkey =>
      obtain rfl := Value.sameKey_str.1 hkey
      simp [Value.sameKey, h.symm]
    · next hkey =>
      simp only [List.find?_cons]
      split
      · rfl
      · exact ih

theorem orDefault_of_get? (h : c.get? key = some v) : orDefault (some c) = c := by
  obtain ⟨entries⟩ := c
  cases entries with
  | nil => simp [get?] at h
  | cons e entries => rfl

theorem get?_setDefault (c : Config) (key : String) (v : Value) (other : String) :
    (c.setDefault key v).get? other =
      (c.get? other).or (if key = other then some v else none) := by
  unfold setDefault
  split
  · next hset =>
    split
    · next heq =>
      subst heq
      exact (Option.or_of_isSome hset).symm
    · rw [Option.or_none]
  · rw [get?, List.find?_append, Option.map_or, ← get?]
    by_cases hkey : key = other
    · simp [Value.sameKey, hkey]
    · simp [Value.sameKey, hkey]

theorem get?_foldl_setDefault (c : Config) (entries : List (String × Value)) (key : String) :
    (entries.foldl (fun c e => c.setDefault e.1 e.2) c).get? key =
      (c.get? key).or (entries.lookup key) := by
  induction entries generalizing c with
  | nil => simp
  | cons e entries ih =>
    obtain ⟨k, v⟩ := e
    have hfirst : List.lookup key ((k, v) :: entries) =
        (if k = key then some v else none).or (entries.lookup key) := by
      rw [List.lookup_cons]
      by_cases hk : k = key
      · simp [hk]
      · rw [beq_false_of_ne (Ne.symm hk), if_neg hk, Option.none_or]
    rw [List.foldl_cons, ih, get?_setDefault, Option.or_assoc, hfirst]

theorem get?_fill (c : Config) (key : String) :
    c.fill.get? key = (c.get? key).or (defaultEntries.lookup key) :=
  get?_foldl_setDefault c defaultEntries key

theorem orDefault_of_entries (h : c.entries ≠ []) : orDefault (some c) = c := by
  obtain ⟨entries⟩ := c
  cases entries with
  | nil => exact absurd rfl h
  | cons e entries => rfl

theorem orDefault_fill (c : Config) : orDefault (some c.fill) = (orDefault (some c)).fill := by
  by_cases hc : c.entries = []
  · obtain ⟨entries⟩ := c
    obtain rfl : entries = [] := hc
    rfl
  · have hdirs : c.fill.get? "skip_dirs" =
        some ((c.get? "skip_dirs").getD (strings defaultSkipDirs)) := by
      rw [get?_fill]
      cases c.get? "skip_dirs" <;> rfl
    rw [orDefault_of_get? hdirs, orDefault_of_entries hc]

theorem orStrings_or (v : Option Value) (ss : List String) :
    orStrings (v.or (some (strings ss))) ss = orStrings v ss := by
  cases v <;> rfl

@[simp] theorem skips_fill (c : Config) : c.fill.skips = c.skips := by
  have hdirs : c.fill.get? "skip_dirs" =
      (c.get? "skip_dirs").or (some (strings defaultSkipDirs)) := get?_fill c _
  have hextensions : c.fill.get? "skip_extensions" =
      (c.get? "skip_extensions").or (some (strings defaultSkipExtensions)) := get?_fill c _
  simp only [skips, skipsOf, hdirs, hextensions, orStrings_or]

@[simp] theorem mode_fill (c : Config) : c.fill.mode = c.mode := by
  have hbroad : c.fill.get? "broad_patterns" =
      (c.get? "broad_patterns").or (some (.bool true)) := get?_fill c _
  rw [mode, mode, hbroad]
  cases c.get? "broad_patterns" <;> rfl

theorem request_fill (c : Config) (url : String) :
    c.fill.request url =
      { c.request url with
        agent := ((c.get? "user_agent").or (some (.str "KeyHunter/1.0.0"))).filter (·.truthy) } := by
  have htimeout : c.fill.get? "request_timeout" =
      (c.get? "request_timeout").or (some defaultTimeout) := get?_fill c _
  have hagent : c.fill.get? "user_agent" =
      (c.get? "user_agent").or (some (.str "KeyHunter/1.0.0")) := get?_fill c _
  unfold request Page.request
  rw [htimeout, hagent]
  cases c.get? "request_timeout" <;> rfl

theorem agent_request_of_missing (h : c.get? "user_agent" = none) (url : String) :
    (c.request url).agent = none ∧
      (c.fill.request url).agent = some (.str "KeyHunter/1.0.0") := by
  rw [request_fill, request, Page.request, h]
  exact ⟨rfl, rfl⟩

theorem request_fill_eq_iff {url : String} :
    c.fill.request url = c.request url ↔ c.get? "user_agent" ≠ none := by
  constructor
  · intro heq hmissing
    obtain ⟨hnone, hfilled⟩ := agent_request_of_missing hmissing url
    rw [heq, hnone] at hfilled
    cases hfilled
  · intro hpresent
    obtain ⟨v, hv⟩ := Option.ne_none_iff_exists'.1 hpresent
    rw [request_fill, request, Page.request, hv]
    rfl

def withBroad (c : Config) (b : Bool) : Config := c.set "broad_patterns" (.bool b)

@[simp] theorem orDefault_withBroad (c : Config) (b : Bool) :
    orDefault (some (c.withBroad b)) = c.withBroad b :=
  orDefault_of_get? (get?_set_self c "broad_patterns" (.bool b))

@[simp] theorem mode_withBroad (c : Config) (b : Bool) :
    (c.withBroad b).mode = if b then .broad else .strict := by
  simp [mode, withBroad, Value.truthy]

@[simp] theorem skips_withBroad (c : Config) (b : Bool) : (c.withBroad b).skips = c.skips := by
  simp [skips, withBroad, get?_set_of_ne]

@[simp] theorem request_withBroad (c : Config) (b : Bool) (url : String) :
    (c.withBroad b).request url = c.request url := by
  simp [request, withBroad, get?_set_of_ne]

end Config

end LeakScan
