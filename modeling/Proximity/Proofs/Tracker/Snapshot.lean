import Proximity.Proofs.Identifier.Order
import Proximity.Tracker

/-! What a tracker shows of its table. Tables that hold the same under every key show the same, in
whatever order they keep their entries. -/

namespace Proximity

instance : Std.TransOrd SubjectKey where
  eq_swap {a b} := by
    cases a <;> cases b
    case region.region a b => exact Std.OrientedOrd.eq_swap (a := a) (b := b)
    case beacon.beacon a b => exact Std.OrientedOrd.eq_swap (a := a) (b := b)
    all_goals rfl
  isLE_trans {a b c} less less' := by
    cases a <;> cases b <;> cases c
    case region.region.region a b c =>
      exact Std.TransOrd.isLE_trans (a := a) (b := b) (c := c) less less'
    case beacon.beacon.beacon a b c =>
      exact Std.TransOrd.isLE_trans (a := a) (b := b) (c := c) less less'
    all_goals first
      | rfl
      | exact absurd less Bool.false_ne_true
      | exact absurd less' Bool.false_ne_true

instance : Std.LawfulEqOrd SubjectKey where
  eq_of_compare {a b} same := by
    cases a <;> cases b
    case region.region a b => rw [Std.LawfulEqOrd.eq_of_compare (a := a) (b := b) same]
    case beacon.beacon a b => rw [Std.LawfulEqOrd.eq_of_compare (a := a) (b := b) same]
    all_goals cases same

namespace Table

variable {κ ν : Type} {table table' : Table κ ν}

theorem nodup_entries (table : Table κ ν) : table.entries.Nodup :=
  List.Pairwise.of_map Prod.fst (fun _ _ => mt (congrArg Prod.fst)) table.nodup_keys

variable [DecidableEq κ]

/-- Two entries with the same key are one. -/
theorem eq_of_fst_eq {a b : κ × ν} (inside : a ∈ table.entries) (inside' : b ∈ table.entries)
    (same : a.1 = b.1) : a = b := by
  have found : table.get? a.1 = some a.2 := get?_eq_some_iff.mpr inside
  have found' : table.get? a.1 = some b.2 := get?_eq_some_iff.mpr (same ▸ inside')
  exact Prod.ext same (Option.some.inj (found.symm.trans found'))

theorem perm_entries (same : ∀ key, table.get? key = table'.get? key) :
    table.entries.Perm table'.entries := by
  rw [List.perm_ext_iff_of_nodup table.nodup_entries table'.nodup_entries]
  rintro ⟨key, value⟩
  rw [← get?_eq_some_iff, ← get?_eq_some_iff, same]

end Table

namespace Tracker

variable {tracker tracker' : Tracker}

theorem perm_sorted (tracker : Tracker) : tracker.sorted.Perm tracker.live.entries :=
  List.mergeSort_perm _ _

theorem pairwise_sorted (tracker : Tracker) :
    tracker.sorted.Pairwise fun a b => (compare a.1 b.1).isLE :=
  List.pairwise_mergeSort (fun a _ _ => Std.TransOrd.isLE_trans (a := a.1))
    (fun a b => isLE_total a.1 b.1) _

/-- The order of a snapshot is that of the keys alone. -/
theorem sorted_congr (same : ∀ key, tracker.live.get? key = tracker'.live.get? key) :
    tracker.sorted = tracker'.sorted := by
  have perm : tracker.live.entries.Perm tracker'.live.entries := Table.perm_entries same
  refine List.Perm.eq_of_pairwise ?_ tracker.pairwise_sorted tracker'.pairwise_sorted
    ((tracker.perm_sorted.trans perm).trans tracker'.perm_sorted.symm)
  intro a b inside inside' le ge
  have sameKey : a.1 = b.1 :=
    Std.LawfulEqOrd.eq_of_compare (Std.OrientedCmp.isLE_antisymm le ge)
  rw [tracker.perm_sorted.mem_iff] at inside
  rw [tracker'.perm_sorted.mem_iff, ← perm.mem_iff] at inside'
  exact Table.eq_of_fst_eq inside inside' sameKey

theorem visibleBeacons_congr (same : ∀ key, tracker.live.get? key = tracker'.live.get? key) :
    tracker.visibleBeacons = tracker'.visibleBeacons := by
  rw [visibleBeacons, visible, sorted_congr same, ← visible, ← visibleBeacons]

theorem visibleRegions_congr (same : ∀ key, tracker.live.get? key = tracker'.live.get? key) :
    tracker.visibleRegions = tracker'.visibleRegions := by
  rw [visibleRegions, visible, sorted_congr same, ← visible, ← visibleRegions]

theorem liveCount_congr (same : ∀ key, tracker.live.get? key = tracker'.live.get? key) :
    tracker.liveCount = tracker'.liveCount :=
  (Table.perm_entries same).length_eq

end Tracker

end Proximity
