import LeakScan.Proofs.Document.Entries
import LeakScan.Proofs.Text.Lowered
import Mathlib.Data.List.TakeWhile

namespace LeakScan

variable {path base : String}

/-- What stands after the last slash of a path, the whole path if it has none. -/
def IsBaseName (path base : String) : Prop :=
  '/' ∉ base.toList ∧ (path = base ∨ ∃ front, path = front ++ "/" ++ base)

theorem baseName_of_no_slash (h : '/' ∉ base.toList) : baseName base = base := by
  have hkept : base.toList.reverse.takeWhile (· != '/') = base.toList.reverse := by
    refine List.takeWhile_eq_self_iff.2 fun c hc => bne_iff_ne.2 fun heq => h ?_
    rw [← heq]
    exact List.mem_reverse.1 hc
  rw [baseName, hkept, List.reverse_reverse, String.ofList_toList]

theorem IsBaseName.eq (h : IsBaseName path base) : baseName path = base := by
  obtain ⟨hslash, rfl | ⟨front, rfl⟩⟩ := h
  · exact baseName_of_no_slash hslash
  · rw [baseName_append_slash, baseName_of_no_slash hslash]

namespace Catalog

/-- An entry is the name up to the case of its letters. -/
def ListsInAnyCase (catalog : Catalog) (name : String) : Prop :=
  ∃ entry ∈ catalog.sensitiveFiles, Text.lower entry = Text.lower name

/-- Every entry that can be the name of a file is also listed in small letters. -/
def ListsInSmall (catalog : Catalog) : Prop :=
  ∀ entry ∈ catalog.sensitiveFiles, '/' ∉ entry.toList →
    Text.lower entry ∈ catalog.sensitiveFiles

variable {catalog : Catalog} {name : String}

theorem listsInAnyCase_of_lower (h : Text.lower name ∈ catalog.sensitiveFiles) :
    catalog.ListsInAnyCase name :=
  ⟨Text.lower name, h, Text.lower_lower name⟩

theorem ListsInSmall.lower_mem (hsmall : catalog.ListsInSmall) (hslash : '/' ∉ name.toList)
    (h : catalog.ListsInAnyCase name) : Text.lower name ∈ catalog.sensitiveFiles := by
  obtain ⟨entry, hentry, hlower⟩ := h
  have hslash : '/' ∉ entry.toList := by
    rwa [← Text.slash_mem_lower, hlower, Text.slash_mem_lower]
  exact hlower ▸ hsmall entry hentry hslash

theorem ofMode_listsInSmall (m : Mode) : (ofMode m).ListsInSmall := by
  have hsmall : ∀ entry ∈ sensitiveNames, Text.lower entry ∈ sensitiveNames := by decide +kernel
  cases m <;> exact fun entry hentry _ => hsmall entry hentry

end Catalog

namespace Document

variable {d : Document} {catalog : Catalog}

/-- A finding says that the document itself is sensitive. -/
def IsFlagged (d : Document) (catalog : Catalog) : Prop :=
  ∃ f, Finding.sensitive f ∈ d.findings catalog

theorem isFlagged_iff : d.IsFlagged catalog ↔ d.fileFindings catalog ≠ [] := by
  rw [← sensitive_findings]
  constructor
  · rintro ⟨f, hf⟩
    exact List.ne_nil_of_mem (List.mem_filterMap.2 ⟨_, hf, rfl⟩)
  · intro h
    obtain ⟨f, hf⟩ := List.exists_mem_of_ne_nil _ h
    obtain ⟨g, hg, hkind⟩ := List.mem_filterMap.1 hf
    cases g with
    | sensitive f => exact ⟨f, hg⟩
    | _ => cases hkind

theorem isFlagged_iff_lower (hfile : d.origin = .file) (hbase : IsBaseName d.path base) :
    d.IsFlagged catalog ↔ Text.lower base ∈ catalog.sensitiveFiles := by
  rw [isFlagged_iff, (fileFindings_of_name hfile).2, hbase.eq]

def unread (path : String) : Document := { path, text := none }

/-- Of every file, readable or not, the name in small letters decides: it gives one finding where it
is an entry and none otherwise, so a name that is found is always an entry up to case. The converse
holds in just those catalogs that list every entry in small letters too, among them the built-in
ones. -/
theorem names_flagged (catalog : Catalog) :
    (∀ (d : Document) (base : String), d.origin = .file → IsBaseName d.path base →
      (d.IsFlagged catalog ↔ Text.lower base ∈ catalog.sensitiveFiles) ∧
      ((d.findings catalog).filterMap Finding.sensitive?).length ≤ 1 ∧
      (d.IsFlagged catalog → catalog.ListsInAnyCase base)) ∧
    (catalog.ListsInSmall ↔
      ∀ (d : Document) (base : String), d.origin = .file → IsBaseName d.path base →
        (d.IsFlagged catalog ↔ catalog.ListsInAnyCase base)) ∧
    ∀ m : Catalog.Mode, catalog = .ofMode m → catalog.ListsInSmall := by
  have hcase {d : Document} {base : String} (hfile : d.origin = .file)
      (hbase : IsBaseName d.path base) (h : d.IsFlagged catalog) : catalog.ListsInAnyCase base :=
    Catalog.listsInAnyCase_of_lower ((isFlagged_iff_lower hfile hbase).1 h)
  refine ⟨fun d base hfile hbase => ⟨isFlagged_iff_lower hfile hbase, ?_, hcase hfile hbase⟩,
    ⟨fun hsmall d base hfile hbase => ⟨hcase hfile hbase, fun hlisted => ?_⟩,
    fun hall entry hentry hslash => ?_⟩, fun m hm => ?_⟩
  · rw [sensitive_findings]
    exact (fileFindings_of_name hfile).1
  · exact (isFlagged_iff_lower hfile hbase).2 (hsmall.lower_mem hbase.1 hlisted)
  · -- the file that has the entry for its path must be flagged
    have hbase : IsBaseName (unread entry).path entry := ⟨hslash, .inl rfl⟩
    have hflagged := (hall (unread entry) entry rfl hbase).2 ⟨entry, hentry, rfl⟩
    exact (isFlagged_iff_lower rfl hbase).1 hflagged
  · rw [hm]
    exact Catalog.ofMode_listsInSmall m

theorem names_flagged_nested : IsBaseName (unread "conf/.Env").path ".Env" ∧
    (unread "conf/.Env").IsFlagged (.ofMode .strict) ∧
    (Catalog.ofMode .strict).ListsInAnyCase ".Env" := by
  have hbase : IsBaseName (unread "conf/.Env").path ".Env" := ⟨by decide, .inr ⟨"conf", rfl⟩⟩
  obtain ⟨hnames, hsmall, hbuiltin⟩ := names_flagged (.ofMode .strict)
  have hflagged : (unread "conf/.Env").IsFlagged (.ofMode .strict) :=
    (hnames _ _ rfl hbase).1.2 (by decide +kernel)
  exact ⟨hbase, hflagged, (hsmall.1 (hbuiltin .strict rfl) _ _ rfl hbase).1 hflagged⟩

def shouting : Catalog := ⟨[], [], [".ENV"]⟩

/-- The entry is the name of the file up to case, and the file is not flagged. -/
theorem capital_entry_missed :
    IsBaseName ".env" ".env" ∧ shouting.ListsInAnyCase ".env" ∧
      ¬ ({ path := ".env", text := some "" } : Document).IsFlagged shouting := by
  refine ⟨⟨by decide, .inl rfl⟩, ⟨".ENV", List.mem_singleton_self _, by decide +kernel⟩, ?_⟩
  have hfindings : ({ path := ".env", text := some "" } : Document).findings shouting = [] := by
    decide +kernel
  rintro ⟨f, hf⟩
  rw [hfindings] at hf
  cases hf

end Document

end LeakScan
