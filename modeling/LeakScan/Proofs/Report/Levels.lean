import LeakScan.Proofs.Report.Rules

namespace LeakScan

namespace Finding

inductive Kind where
  | key
  | sensitive
  | code
deriving DecidableEq, Repr

def Kind.all : List Kind := [.key, .sensitive, .code]

theorem Kind.mem_all (kind : Kind) : kind ∈ all := by cases kind <;> decide

def kind : Finding → Kind
  | key _ => .key
  | sensitive _ => .sensitive
  | code _ => .code

theorem level_eq_iff {f g : Finding} : f.level = g.level ↔ (f.kind = .key ↔ g.kind = .key) := by
  cases f <;> cases g <;> simp [level, kind]

end Finding

namespace Report

/-- Findings that have one name are of one kind. -/
def KindsApart (r : Report) : Prop :=
  ∀ f ∈ r.findings, ∀ g ∈ r.findings, f.ruleId = g.ruleId → f.kind = g.kind

def HasKeyOf (r : Report) (name : String) : Prop := ∃ k ∈ r.keys, k.service = name

variable {r : Report} {f g : Finding} {name : String}

theorem hasKeyOf_of_kind (hf : f ∈ r.findings) (hkind : f.kind = .key) : r.HasKeyOf f.ruleId := by
  cases f with
  | key k => exact ⟨k, by simpa [findings] using hf, rfl⟩
  | _ => cases hkind

theorem kind_of_first (h : r.findings.find? (·.ruleId == name) = some g) :
    g.kind = .key ↔ r.HasKeyOf name := by
  have hname : g.ruleId = name := by simpa using List.find?_some h
  refine ⟨fun hkind => hname ▸ hasKeyOf_of_kind (List.mem_of_find?_eq_some h) hkind, ?_⟩
  rintro ⟨k, hk, hservice⟩
  rw [findings, List.append_assoc, List.find?_append] at h
  cases hfirst : (r.keys.map Finding.key).find? (·.ruleId == name) with
  | none =>
    have := List.find?_eq_none.1 hfirst _ (List.mem_map_of_mem hk)
    simp [Finding.ruleId, hservice] at this
  | some f =>
    rw [hfirst, Option.some_or] at h
    obtain ⟨k', -, hkey⟩ := List.mem_map.1 (List.mem_of_find?_eq_some hfirst)
    rw [← Option.some.inj h, ← hkey]
    rfl

end Report

namespace Sarif

variable {fs : List Finding} {r : Report} {job : Job} {f g : Finding}
  {name : String}

theorem described_ruleTable (fs : List Finding) : ∀ rule ∈ (ruleTable fs).rules,
    (fs.find? (·.ruleId == rule.id)).map Finding.rule = some rule := by
  induction fs using List.reverseRecOn with
  | nil => exact List.forall_mem_nil _
  | append_singleton fs f ih =>
    have hold : ∀ rule ∈ (ruleTable fs).rules,
        ((fs ++ [f]).find? (·.ruleId == rule.id)).map Finding.rule = some rule := by
      intro rule hrule
      obtain ⟨g, hg, hdescribed⟩ := Option.map_eq_some_iff.1 (ih rule hrule)
      rw [List.find?_append, hg, Option.some_or, Option.map_some, hdescribed]
    rw [ruleTable_concat, RuleTable.add]
    split
    · exact hold
    · next hnone =>
      intro rule hrule
      rcases List.mem_append.1 hrule with hrule | hrule
      · exact hold rule hrule
      · -- No finding before has the name of the last one, which would have a number otherwise.
        rw [List.mem_singleton.1 hrule]
        have hfirst : fs.find? (·.ruleId == f.rule.id) = none := by
          refine List.find?_eq_none.2 fun g hg hname => hnone ?_
          have hid : g.ruleId = f.ruleId := by simpa [Finding.rule] using hname
          rw [← hid]
          exact isSome_number?_ruleTable hg
        rw [List.find?_append, hfirst, Option.none_or]
        simp [Finding.rule]

theorem rule_of_number? {k : Nat} (hk : (ruleTable fs).number? name = some k) :
    (ruleTable fs).rules[k]? = (fs.find? (·.ruleId == name)).map Finding.rule := by
  have hid := ((keeps_ruleTable fs).number?_eq_some name k).1 hk
  rw [List.getElem?_map] at hid
  obtain ⟨rule, hrule, rfl⟩ := Option.map_eq_some_iff.1 hid
  rw [hrule, described_ruleTable fs rule (List.mem_of_getElem? hrule)]

def rulePath (k : Nat) : List Json.Step := rulesPath ++ [.item k]

def defaultLevelPath : List Json.Step := [.member "defaultConfiguration", .member "level"]

/-- The result has the level that the rule at its number has. -/
def AgreesWithRule (log result : Json) : Prop :=
  ∃ k level, result.part? [.member "ruleIndex"] = some (.ofNat k) ∧
    log.part? (rulePath k ++ defaultLevelPath) = some (.str level) ∧
    result.part? [.member "level"] = some (.str level)

def SharesRule (result result' : Json) : Prop :=
  ∃ k, result.part? [.member "ruleIndex"] = some (.ofNat k) ∧
    result'.part? [.member "ruleIndex"] = some (.ofNat k)

theorem defaultLevel_toJson (l : Log) (k : Nat) :
    l.toJson.part? (rulePath k ++ defaultLevelPath) =
      l.rules[k]?.map fun rule => .str rule.level.text := by
  have hitem : l.toJson.part? (rulePath k ++ defaultLevelPath) =
      (l.rules.map (·.toJson))[k]?.bind fun rule => rule.part? defaultLevelPath := rfl
  rw [hitem, List.getElem?_map]
  cases l.rules[k]? <;> rfl

theorem index_eq_iff (hf : f ∈ r.findings) {k : Nat} :
    (resultIn r f).part? [.member "ruleIndex"] = some (.ofNat k) ↔
      (ruleTable r.findings).number? f.ruleId = some k := by
  obtain ⟨k', hk', hresult⟩ := exists_number? hf
  rw [hresult, ruleIndex_resultOf, hk', Option.some.injEq, Json.ofNat, Json.ofNat, Json.int.injEq,
    Int.natCast_inj, Option.some.injEq]

theorem Level.text_injective {l l' : Level} (h : l.text = l'.text) : l = l' := by
  cases l <;> cases l' <;> first | rfl | exact absurd h (by decide)

theorem agreesWithRule_iff (hf : f ∈ r.findings) :
    AgreesWithRule (ofReport r job).toJson (resultIn r f) ↔
      f.kind = .key ∨ ¬ r.HasKeyOf f.ruleId := by
  have hnamed : (r.findings.find? (·.ruleId == f.ruleId)).isSome :=
    List.find?_isSome.2 ⟨f, hf, beq_self_eq_true _⟩
  obtain ⟨g, hg⟩ := Option.isSome_iff_exists.1 hnamed
  have hagree : AgreesWithRule (ofReport r job).toJson (resultIn r f) ↔ f.level = g.level := by
    have hrule {k : Nat} (hk : (ruleTable r.findings).number? f.ruleId = some k) :
        (ofReport r job).rules[k]? = some g.rule := by
      rw [ofReport, rule_of_number? hk, hg]
      rfl
    have hlevel : (resultIn r f).part? [.member "level"] = some (.str f.level.text) := rfl
    simp only [AgreesWithRule, index_eq_iff hf, defaultLevel_toJson, hlevel]
    constructor
    · rintro ⟨k, level, hk, hdefault, hown⟩
      rw [hrule hk, ← hown] at hdefault
      exact (Level.text_injective (Json.str.inj (Option.some.inj hdefault))).symm
    · intro heq
      obtain ⟨k, hk, -⟩ := exists_number? hf
      exact ⟨k, f.level.text, hk, by rw [hrule hk, heq]; rfl, rfl⟩
  rw [hagree, Finding.level_eq_iff, Report.kind_of_first hg]
  have hkey : f.kind = .key → r.HasKeyOf f.ruleId := Report.hasKeyOf_of_kind hf
  constructor
  · intro hiff
    exact (em (f.kind = .key)).imp_right (mt hiff.2)
  · rintro (hkind | hnone)
    · exact iff_of_true hkind (hkey hkind)
    · exact iff_of_false (mt hkey hnone) hnone

theorem sharesRule_iff (hf : f ∈ r.findings) (hg : g ∈ r.findings) :
    SharesRule (resultIn r f) (resultIn r g) ↔ f.ruleId = g.ruleId := by
  simp only [SharesRule, index_eq_iff hf, index_eq_iff hg]
  constructor
  · rintro ⟨k, hk, hk'⟩
    have hkeeps := keeps_ruleTable r.findings
    exact Option.some.inj (((hkeeps.number?_eq_some _ k).1 hk).symm.trans
      ((hkeeps.number?_eq_some _ k).1 hk'))
  · intro hname
    obtain ⟨k, hk, -⟩ := exists_number? hf
    exact ⟨k, hk, hname ▸ hk⟩

end Sarif

end LeakScan
