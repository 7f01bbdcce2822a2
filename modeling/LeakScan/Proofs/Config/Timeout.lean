import LeakScan.Proofs.Config.Keys
import LeakScan.Proofs.Config.Skips

namespace LeakScan

namespace Binary64

def IsPositive : Binary64 → Prop
  | finite negative mantissa _ => negative = false ∧ mantissa ≠ 0
  | infinite negative => negative = false
  | nan => False

variable {x : Binary64} {negative : Bool} {mantissa : Nat} {exponent : Int}

theorem fraction_pos_iff :
    0 < (fraction negative mantissa exponent).1 ↔ negative = false ∧ mantissa ≠ 0 := by
  have hpow : 0 < Nat.pow 2 exponent.toNat := Nat.two_pow_pos _
  have hzero : mantissa * Nat.pow 2 exponent.toNat = 0 ↔ mantissa = 0 := by
    rw [Nat.mul_eq_zero]
    omega
  unfold fraction
  generalize mantissa * Nat.pow 2 exponent.toNat = n at *
  cases negative with
  | true =>
    simp only [if_true, Bool.true_eq_false, false_and, iff_false]
    omega
  | false =>
    simp only [Bool.false_eq_true, if_false, true_and]
    omega

theorem compareInt_zero_eq_gt : x.compareInt 0 = some .gt ↔ x.IsPositive := by
  cases x with
  | finite negative mantissa exponent =>
    simp only [compareInt, Int.zero_mul, Option.some.injEq, Int.compare_eq_gt]
    exact fraction_pos_iff
  | infinite negative => cases negative <;> simp [compareInt, IsPositive]
  | nan => simp [compareInt, IsPositive]

theorem compareInt_eq_none {n : Int} : x.compareInt n = none ↔ x = nan := by
  cases x with
  | finite _ _ _ => simp [compareInt]
  | infinite negative => cases negative <;> simp [compareInt]
  | nan => simp [compareInt]

end Binary64

namespace Value

/-- A number above zero, whole or not. Truth values are no numbers. -/
def IsPositive : Value → Prop
  | int n => 0 < n
  | real x => x.IsPositive
  | _ => False

def real? : Value → Option Binary64
  | real x => some x
  | _ => none

end Value

namespace Config

variable {c c' loaded : Config} {v : Value}

abbrev timeoutKey : String := "request_timeout"

theorem isTimeout_iff : isTimeout (some v) = true ↔ v.IsPositive ∨ v = .real .nan := by
  cases v with
  | int n => simp [isTimeout, Value.IsPositive]
  | real x =>
    have hpositive : (Value.real x).IsPositive ↔ x.compareInt 0 = some .gt :=
      Binary64.compareInt_zero_eq_gt.symm
    rw [hpositive, Value.real.injEq, ← Binary64.compareInt_eq_none (n := 0), isTimeout]
    cases x.compareInt 0 with
    | none => simp
    | some o => cases o <;> simp
  | _ => simp [isTimeout, Value.IsPositive]

theorem exists_of_isTimeout {w : Option Value} (h : isTimeout w = true) :
    ∃ v, w = some v ∧ (v.IsPositive ∨ v = .real .nan) := by
  cases w with
  | none => simp [isTimeout] at h
  | some v => exact ⟨v, rfl, isTimeout_iff.1 h⟩

theorem fault?_eq_none_iff :
    c.fault? = none ↔ isStringList (c.get? "skip_dirs") = true ∧
      isStringList (c.get? "skip_extensions") = true ∧ isBool (c.get? "broad_patterns") = true ∧
      isTimeout (c.get? timeoutKey) = true := by
  unfold fault?
  cases isStringList (c.get? "skip_dirs") <;> cases isStringList (c.get? "skip_extensions") <;>
    cases isBool (c.get? "broad_patterns") <;> cases isTimeout (c.get? timeoutKey) <;> simp

theorem fault?_of_others (h : c.fault? = none)
    (hothers : ∀ key, key ≠ timeoutKey → c'.get? key = c.get? key) :
    c'.fault? = if isTimeout (c'.get? timeoutKey) then none else some .badTimeout := by
  obtain ⟨hdirs, hextensions, hbroad, -⟩ := fault?_eq_none_iff.1 h
  unfold fault?
  rw [hothers "skip_dirs" (by decide), hothers "skip_extensions" (by decide),
    hothers "broad_patterns" (by decide), hdirs, hextensions, hbroad]
  cases isTimeout (c'.get? timeoutKey) <;> rfl

theorem validate_eq_ok_iff : validate c = .ok loaded ↔ c.fill.fault? = none ∧ loaded = c.fill := by
  unfold validate
  cases c.fill.fault? with
  | none => simp [eq_comm]
  | some f => simp

theorem get?_fill_set (c : Config) (key : String) (v : Value) :
    (c.set key v).fill.get? key = some v := by
  rw [get?_fill, get?_set_self, Option.some_or]

theorem validate_set_timeout (h : validate c = .ok loaded) (v : Value) :
    validate (c.set timeoutKey v) =
      if isTimeout (some v) then .ok (c.set timeoutKey v).fill else .error .badTimeout := by
  have hothers (key : String) (hkey : key ≠ timeoutKey) :
      (c.set timeoutKey v).fill.get? key = c.fill.get? key := by
    rw [get?_fill, get?_fill, get?_set_of_ne hkey]
  have hfault := fault?_of_others (validate_eq_ok_iff.1 h).1 hothers
  rw [get?_fill_set] at hfault
  unfold validate
  rw [hfault]
  cases isTimeout (some v) <;> rfl

/-- Settings that have passed the check have a time limit above zero or one that is no number,
wherever they come from. Any such time limit can stand in settings that pass, but nothing else: no
truth value, text, list or null, and no number that is zero or less. -/
theorem time_limits_that_pass (loaded : Config) :
    (∀ c : Config, validate c = .ok loaded → ∃ v, loaded.get? "request_timeout" = some v ∧
      (v.IsPositive ∨ v = .real .nan)) ∧
    (∀ (disk : Disk) (given : Option String) (root : String),
      (load disk given root).result = .ok loaded → ∃ v, loaded.get? "request_timeout" = some v ∧
        (v.IsPositive ∨ v = .real .nan)) ∧
    ∀ (c : Config) (v : Value), validate c = .ok loaded →
      (v.IsPositive ∨ v = .real .nan → ∃ loaded',
        validate (c.set "request_timeout" v) = .ok loaded' ∧
        loaded'.get? "request_timeout" = some v) ∧
      (¬ (v.IsPositive ∨ v = .real .nan) →
        validate (c.set "request_timeout" v) = .error .badTimeout) := by
  have htimeout {c : Config} (h : c.fault? = none) :
      ∃ v, c.get? "request_timeout" = some v ∧ (v.IsPositive ∨ v = .real .nan) :=
    exists_of_isTimeout (fault?_eq_none_iff.1 h).2.2.2
  refine ⟨fun c h => ?_, fun disk given root h => htimeout (fault?_of_load h),
    fun c v h => ⟨fun hv => ?_, fun hv => ?_⟩⟩
  · obtain ⟨hfault, rfl⟩ := validate_eq_ok_iff.1 h
    exact htimeout hfault
  · exact ⟨_, (validate_set_timeout h v).trans (if_pos (isTimeout_iff.2 hv)), get?_fill_set c _ v⟩
  · exact (validate_set_timeout h v).trans (if_neg (mt isTimeout_iff.1 hv))

def halfSecond : Value := .real (.finite false 1 (-1))

theorem time_limits_that_pass_half :
    (∃ loaded, validate ⟨[]⟩ = .ok loaded ∧ ∃ v, loaded.get? "request_timeout" = some v ∧
      (v.IsPositive ∨ v = .real .nan)) ∧
    (∃ loaded, validate ((⟨[]⟩ : Config).set "request_timeout" halfSecond) = .ok loaded ∧
      loaded.get? "request_timeout" = some halfSecond) ∧
    validate ((⟨[]⟩ : Config).set "request_timeout" (.real (.finite true 1 (-1)))) =
      .error .badTimeout := by
  have hempty : validate ⟨[]⟩ = .ok default := rfl
  obtain ⟨hchecked, -, hset⟩ := time_limits_that_pass default
  refine ⟨⟨default, hempty, hchecked _ hempty⟩, ?_, ?_⟩
  · exact (hset _ halfSecond hempty).1 (.inl ⟨rfl, by decide⟩)
  · refine (hset _ _ hempty).2 ?_
    rintro (⟨hsign, -⟩ | hnan)
    · cases hsign
    · cases hnan

def unlimitedDisk : Disk :=
  ⟨.directory [("r", .directory [(".keyhunter.yml",
    .file (Text.encodeUtf8 "request_timeout: .nan".toList) .full)] .full)] .full, []⟩

/-- The settings pass, and their time limit is not above zero. -/
theorem no_number_passes :
    ∃ loaded v, (load unlimitedDisk none "/r").result = .ok loaded ∧
      loaded.get? "request_timeout" = some v ∧ ¬ v.IsPositive := by
  have hread : ((load unlimitedDisk none "/r").result.toOption.bind fun c =>
      (c.get? "request_timeout").bind Value.real?) = some .nan := by decide +kernel
  obtain ⟨loaded, hloaded, hlimit⟩ := Option.bind_eq_some_iff.1 hread
  obtain ⟨v, hv, hreal⟩ := Option.bind_eq_some_iff.1 hlimit
  refine ⟨loaded, v, ?_, hv, ?_⟩
  · cases hresult : (load unlimitedDisk none "/r").result with
    | error e => simp [hresult, Except.toOption] at hloaded
    | ok c =>
      rw [hresult] at hloaded
      exact congrArg _ (Option.some.inj hloaded)
  · cases v with
    | real x =>
      obtain rfl := Option.some.inj hreal
      exact id
    | _ => cases hreal

end Config

end LeakScan
