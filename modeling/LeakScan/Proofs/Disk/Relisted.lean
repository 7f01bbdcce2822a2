import LeakScan.Proofs.Disk.Alike
import Mathlib.Data.List.Nodup

namespace LeakScan

namespace Node

/-- The same tree, with the entries of any of its directories listed in another order. -/
inductive Relisted : Node → Node → Prop where
  | file (bytes : List UInt8) (access : Access) :
      Relisted (.file bytes access) (.file bytes access)
  | directory {entries entries' : List (String × Node)} (access : Access)
      (names : (entries.map (·.1)).Perm (entries'.map (·.1)))
      (below : ∀ e ∈ entries, ∀ e' ∈ entries', e.1 = e'.1 → Relisted e.2 e'.2) :
      Relisted (.directory entries access) (.directory entries' access)
  | link (target : String) : Relisted (.link target) (.link target)
  | pipe : Relisted .pipe .pipe

variable {entries entries' : List (String × Node)} {access : Access} {n m : Node}

theorem WellFormed.relisted_self (hn : n.WellFormed) : n.Relisted n := by
  induction hn with
  | file bytes access => exact .file bytes access
  | directory access nodup names below ih =>
    refine .directory access (.refl _) fun e he e' he' heq => ?_
    have hsame : e = e' := List.inj_on_of_nodup_map nodup he he' heq
    exact hsame ▸ ih e he
  | link target => exact .link target
  | pipe => exact .pipe

theorem relisted_of_perm (hwf : WellFormed (.directory entries access))
    (h : entries.Perm entries') :
    Relisted (.directory entries access) (.directory entries' access) := by
  refine .directory access (h.map _) fun e he e' he' heq => ?_
  have hsame : e = e' := List.inj_on_of_nodup_map hwf.directory_nodup he (h.mem_iff.2 he') heq
  exact hsame ▸ (hwf.entry he).relisted_self

theorem Relisted.alike (h : n.Relisted m) : n.Alike (· = ·) m := by
  induction h with
  | file bytes access => exact .file access rfl
  | directory access names below ih => exact .directory access names ih
  | link target => exact .link target
  | pipe => exact .pipe

end Node

namespace Disk

/-- The same disk, with the entries of any of its directories listed in another order. -/
structure Relisted (d d' : Disk) : Prop where
  root : d.root.Relisted d'.root
  here : d.here = d'.here

theorem Relisted.alike {d d' : Disk} (h : d.Relisted d') : d.Alike (· = ·) d' :=
  ⟨h.root.alike, h.here⟩

end Disk

end LeakScan
