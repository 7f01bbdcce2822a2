import LeakScan.Proofs.Walk.Coverage
import LeakScan.Scan.Directory
import Mathlib.Algebra.Ring.Nat

namespace LeakScan

def Visit.failure? : Visit → Option ReadFailure
  | .document _ d => d.readError.map fun e => ⟨d.path, e⟩
  | .unlisted _ relative e => some ⟨relative, e.message⟩

namespace Tally

variable {catalog : Catalog} {t : Tally}

theorem foldl_addFinding (fs : List Finding) :
    fs.foldl addFinding t =
      { t with
        keys := t.keys ++ fs.filterMap Finding.key?
        sensitiveFiles := t.sensitiveFiles ++ fs.filterMap Finding.sensitive?
        codeIssues := t.codeIssues ++ fs.filterMap Finding.code? } := by
  induction fs generalizing t with
  | nil => simp
  | cons f fs ih =>
    rw [List.foldl_cons, ih]
    cases f <;> simp [addFinding, List.filterMap_cons, Finding.key?, Finding.sensitive?,
      Finding.code?]

theorem count_eq (d : Document) :
    t.count d =
      { t with
        filesScanned := t.filesScanned + 1
        errors := t.errors ++ (d.readError.map fun e => ⟨d.path, e⟩).toList } := by
  unfold count
  cases d.readError <;> simp [addError]

theorem addVisit_eq (v : Visit) :
    t.addVisit catalog v =
      { t with
        filesScanned := t.filesScanned + v.document?.toList.length
        keys := t.keys ++ v.document?.toList.flatMap fun d =>
          (d.findings catalog).filterMap Finding.key?
        sensitiveFiles := t.sensitiveFiles ++ v.document?.toList.flatMap fun d =>
          (d.findings catalog).filterMap Finding.sensitive?
        codeIssues := t.codeIssues ++ v.document?.toList.flatMap fun d =>
          (d.findings catalog).filterMap Finding.code?
        errors := t.errors ++ v.failure?.toList } := by
  cases v with
  | document path d => simp [addVisit, addFindings, foldl_addFinding, count_eq,
      Visit.document?, Visit.failure?]
  | unlisted path relative e => simp [addVisit, addError, Visit.document?, Visit.failure?]

theorem filterMap_cons_toList {α β : Type} (g : α → Option β) (a : α) (as : List α) :
    (a :: as).filterMap g = (g a).toList ++ as.filterMap g := by
  cases h : g a <;> simp [h]

theorem addVisits_eq (visits : List Visit) :
    t.addVisits catalog visits =
      { t with
        filesScanned := t.filesScanned + (visits.filterMap Visit.document?).length
        keys := t.keys ++ (visits.filterMap Visit.document?).flatMap fun d =>
          (d.findings catalog).filterMap Finding.key?
        sensitiveFiles := t.sensitiveFiles ++ (visits.filterMap Visit.document?).flatMap fun d =>
          (d.findings catalog).filterMap Finding.sensitive?
        codeIssues := t.codeIssues ++ (visits.filterMap Visit.document?).flatMap fun d =>
          (d.findings catalog).filterMap Finding.code?
        errors := t.errors ++ visits.filterMap Visit.failure? } := by
  induction visits generalizing t with
  | nil => simp [addVisits]
  | cons v visits ih =>
    have hstep : t.addVisits catalog (v :: visits) =
        (t.addVisit catalog v).addVisits catalog visits := rfl
    rw [hstep, ih, addVisit_eq]
    simp only [filterMap_cons_toList, List.flatMap_append, List.append_assoc, List.length_append,
      Nat.add_assoc]

end Tally

namespace Finding

theorem length_by_kind (fs : List Finding) :
    (fs.filterMap key?).length + (fs.filterMap sensitive?).length + (fs.filterMap code?).length =
      fs.length := by
  induction fs with
  | nil => rfl
  | cons f fs ih =>
    cases f <;> simp [List.filterMap_cons, key?, sensitive?, code?] <;> omega

theorem length_flatMap_by_kind {α : Type} (g : α → List Finding) (as : List α) :
    (as.flatMap fun a => (g a).filterMap key?).length +
        (as.flatMap fun a => (g a).filterMap sensitive?).length +
        (as.flatMap fun a => (g a).filterMap code?).length =
      (as.map fun a => (g a).length).sum := by
  induction as with
  | nil => rfl
  | cons a as ih =>
    have ha := length_by_kind (g a)
    simp only [List.flatMap_cons, List.length_append, List.map_cons, List.sum_cons]
    omega

end Finding

end LeakScan
