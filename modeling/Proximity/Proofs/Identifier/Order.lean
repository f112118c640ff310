import Proximity.Proofs.Bytes
import Proximity.Identifier
import Mathlib.Logic.ExistsUnique

/-! The order of identifiers is a linear one: the length decides, then the number that the bytes
spell. As in every linear order that tells all its elements apart, a list of identifiers can be
arranged in one way only, and so can a list of identifier lists. -/

namespace Proximity

namespace Bytes

/-- Of two numbers with as many low digits each, the leading digits decide before the others do. -/
theorem compare_leading {unit high high' low low' : Nat} (below : low < unit)
    (below' : low' < unit) :
    compare (unit * high + low) (unit * high' + low') =
      (compare high high').then (compare low low') := by
  cases order : compare high high' with
  | lt =>
    have step : unit * (high + 1) ≤ unit * high' :=
      Nat.mul_le_mul_left unit (Nat.compare_eq_lt.mp order)
    rw [Nat.mul_succ] at step
    exact Nat.compare_eq_lt.mpr (by omega)
  | eq =>
    obtain rfl := Nat.compare_eq_eq.mp order
    rw [Ordering.then]
    cases rest : compare low low' with
    | lt => exact Nat.compare_eq_lt.mpr (Nat.add_lt_add_left (Nat.compare_eq_lt.mp rest) _)
    | eq => exact Nat.compare_eq_eq.mpr (congrArg _ (Nat.compare_eq_eq.mp rest))
    | gt => exact Nat.compare_eq_gt.mpr (Nat.add_lt_add_left (Nat.compare_eq_gt.mp rest) _)
  | gt =>
    have step : unit * (high' + 1) ≤ unit * high :=
      Nat.mul_le_mul_left unit (Nat.compare_eq_gt.mp order)
    rw [Nat.mul_succ] at step
    exact Nat.compare_eq_gt.mpr (by omega)

/-- Byte strings of one length are in the order of the numbers that they spell. -/
theorem compare_eq_compare_value {a b : Bytes} (same : a.length = b.length) :
    compare a b = compare (value a) (value b) := by
  induction a generalizing b with
  | nil =>
    obtain rfl := List.eq_nil_of_length_eq_zero same.symm
    rfl
  | cons first a ih =>
    cases b with
    | nil => cases same
    | cons first' b =>
      have rest : a.length = b.length := Nat.succ.inj same
      have below := value_lt a
      rw [rest] at below
      rw [List.compare_cons_cons, value_cons, value_cons, rest, compare_leading below (value_lt b),
        UInt8.compare_eq_toNat_compare_toNat, ih rest]

end Bytes

section Arrangement

variable {α : Type} [Ord α]

/-- The same items in an order in which none stands behind a greater one. -/
structure Arranges (sorted items : List α) : Prop where
  perm : sorted.Perm items
  ascending : sorted.Pairwise fun a b => (compare a b).isLE

theorem isLE_total [Std.OrientedOrd α] (a b : α) : (compare a b).isLE || (compare b a).isLE := by
  rw [Std.OrientedOrd.eq_swap (a := b)]
  cases compare a b <;> rfl

theorem compare_eq_lt_of_isLE_of_ne [Std.LawfulEqOrd α] {a b : α} (le : (compare a b).isLE)
    (ne : a ≠ b) : compare a b = .lt := by
  cases order : compare a b with
  | lt => rfl
  | eq => exact absurd (Std.LawfulEqOrd.eq_of_compare order) ne
  | gt => rw [order] at le; cases le

/-- Lists are compared as words are in a dictionary. -/
theorem compare_eq_lt_iff_lex [Std.LawfulEqOrd α] {a b : List α} :
    compare a b = .lt ↔ List.Lex (compare · · = .lt) a b := by
  induction a generalizing b with
  | nil => cases b <;> simp
  | cons x a ih =>
    cases b with
    | nil => simp
    | cons y b =>
      rw [List.compare_cons_cons, Ordering.then_eq_lt, ih]
      constructor
      · rintro (less | ⟨same, less⟩)
        · exact .rel less
        · obtain rfl := Std.LawfulEqOrd.eq_of_compare same
          exact .cons less
      · rintro (_ | less | less)
        · exact Or.inl less
        · exact Or.inr ⟨Std.ReflOrd.compare_self, less⟩

theorem arranges_mergeSort [Std.TransOrd α] (items : List α) :
    Arranges (items.mergeSort fun a b => (compare a b).isLE) items where
  perm := List.mergeSort_perm _ _
  ascending :=
    List.pairwise_mergeSort (fun a _ _ => Std.TransOrd.isLE_trans (a := a)) isLE_total _

variable {sorted other items : List α}

/-- Items that compare as equal are one, so that an arrangement leaves nothing to choose. -/
theorem Arranges.unique [Std.TransOrd α] [Std.LawfulEqOrd α] (arranges : Arranges sorted items)
    (arranges' : Arranges other items) : sorted = other := by
  refine List.Perm.eq_of_pairwise ?_ arranges.ascending arranges'.ascending
    (arranges.perm.trans arranges'.perm.symm)
  intro a b _ _ le ge
  exact Std.LawfulEqOrd.eq_of_compare (Std.OrientedCmp.isLE_antisymm le ge)

theorem existsUnique_arranges [Std.TransOrd α] [Std.LawfulEqOrd α] (items : List α) :
    ∃! sorted, Arranges sorted items :=
  ⟨_, arranges_mergeSort items, fun _ arranges => arranges.unique (arranges_mergeSort items)⟩

theorem Arranges.strictly [Std.LawfulEqOrd α] (arranges : Arranges sorted items)
    (distinct : items.Nodup) : sorted.Pairwise (compare · · = .lt) := by
  have distinct' : sorted.Nodup := arranges.perm.nodup_iff.mpr distinct
  refine (arranges.ascending.and distinct').imp ?_
  exact fun ⟨le, ne⟩ => compare_eq_lt_of_isLE_of_ne le ne

end Arrangement

namespace Identifier

theorem compare_eq_compareLex :
    (compare : Identifier → Identifier → Ordering) =
      compareLex (compareOn size) (compareOn bytes) := rfl

instance : Std.TransOrd Identifier := by
  rw [Std.TransOrd, compare_eq_compareLex]
  infer_instance

instance : Std.LawfulEqOrd Identifier where
  eq_of_compare := by
    rintro ⟨bytes, nonempty⟩ ⟨bytes', nonempty'⟩ same
    have sameBytes : compare bytes bytes' = .eq := (Ordering.then_eq_eq.mp same).2
    obtain rfl := Std.LawfulEqOrd.eq_of_compare sameBytes
    rfl

theorem compare_eq_lt_of_size_lt {x y : Identifier} (shorter : x.size < y.size) :
    compare x y = .lt := by
  have less : compare x.size y.size = .lt := Nat.compare_eq_lt.mpr shorter
  rw [show compare x y = (compare x.size y.size).then (compare x.bytes y.bytes) from rfl, less]
  rfl

theorem compare_eq_compare_value {x y : Identifier} (same : x.size = y.size) :
    compare x y = compare (Bytes.value x.bytes) (Bytes.value y.bytes) := by
  have equal : compare x.size y.size = .eq := Nat.compare_eq_eq.mpr same
  rw [show compare x y = (compare x.size y.size).then (compare x.bytes y.bytes) from rfl, equal,
    ← Bytes.compare_eq_compare_value same]
  rfl

/-- Identifiers are ordered linearly, the shorter ones first and those of one length as the numbers
that they spell. So different identifiers are in ascending order in one way only, which is how they
are sorted, and the same is true of different lists of identifiers, compared lexicographically. -/
theorem compare_linear_numeric :
    (∀ x y : Identifier,
      ((compare x y).isLE ∨ (compare y x).isLE) ∧
      compare y x = (compare x y).swap ∧
      ((compare x y).isLE → (compare y x).isLE → x = y) ∧
      (compare x y = .eq ↔ x = y) ∧
      (x.size < y.size → compare x y = .lt) ∧
      (x.size = y.size →
        compare x y = compare (Bytes.value x.bytes) (Bytes.value y.bytes))) ∧
    (∀ x y z : Identifier, (compare x y).isLE → (compare y z).isLE → (compare x z).isLE) ∧
    (∀ ids : List Identifier, ids.Nodup →
      (∃! sorted, Arranges sorted ids) ∧ Arranges (sort ids) ids ∧
        (sort ids).Pairwise (compare · · = .lt)) ∧
    (∀ a b : List Identifier, compare a b = .lt ↔ List.Lex (compare · · = .lt) a b) ∧
    ∀ lists : List (List Identifier), lists.Nodup →
      (∃! sorted, Arranges sorted lists) ∧
        ∀ sorted, Arranges sorted lists → sorted.Pairwise (compare · · = .lt) := by
  refine ⟨fun x y => ⟨?total, ?oriented, ?antisymm, ?equal, ?shorter, ?numeric⟩,
    fun x y z => Std.TransOrd.isLE_trans, fun ids distinct => ?ids,
    fun a b => compare_eq_lt_iff_lex, fun lists distinct => ?lists⟩
  case total => exact Bool.or_eq_true_iff.mp (isLE_total x y)
  case oriented => exact Std.OrientedOrd.eq_swap
  case antisymm =>
    exact fun le ge => Std.LawfulEqOrd.eq_of_compare (Std.OrientedCmp.isLE_antisymm le ge)
  case equal => exact Std.LawfulEqOrd.compare_eq_iff_eq
  case shorter => exact compare_eq_lt_of_size_lt
  case numeric => exact compare_eq_compare_value
  case ids =>
    have sorts : Arranges (sort ids) ids := arranges_mergeSort ids
    exact ⟨existsUnique_arranges ids, sorts, sorts.strictly distinct⟩
  case lists =>
    exact ⟨existsUnique_arranges lists, fun sorted arranges => arranges.strictly distinct⟩

/-- Identifiers of several lengths, and lists of which one begins another. -/
theorem compare_linear_numeric_mixed :
    let zeros : Identifier := ⟨[0, 0, 0], by simp⟩
    let full : Identifier := ⟨[0xff], by simp⟩
    let pair : Identifier := ⟨[1, 0], by simp⟩
    let ids := [zeros, ofUInt16 0x100, full, ofUInt16 9]
    let lists := [[ofUInt16 9, full], [zeros], [ofUInt16 9]]
    (full.size < zeros.size ∧ compare full zeros = .lt) ∧
    ((ofUInt16 0x100).size = (ofUInt16 9).size ∧
      compare (ofUInt16 0x100) (ofUInt16 9) =
        compare (Bytes.value (ofUInt16 0x100).bytes) (Bytes.value (ofUInt16 9).bytes)) ∧
    ((compare (ofUInt16 0x100) pair).isLE ∧ (compare pair (ofUInt16 0x100)).isLE ∧
      ofUInt16 0x100 = pair) ∧
    ((compare full (ofUInt16 9)).isLE ∧ (compare (ofUInt16 9) zeros).isLE ∧
      (compare full zeros).isLE) ∧
    (ids.Nodup ∧ sort ids = [full, ofUInt16 9, ofUInt16 0x100, zeros]) ∧
    lists.Nodup ∧
      ∀ sorted, Arranges sorted lists → sorted = [[ofUInt16 9], [ofUInt16 9, full], [zeros]] := by
  intro zeros full pair ids lists
  obtain ⟨pairs, trans, arrangements, -, listArrangements⟩ := compare_linear_numeric
  have distinct : ids.Nodup := by decide +kernel
  have arranged : Arranges [full, ofUInt16 9, ofUInt16 0x100, zeros] ids :=
    ⟨by decide +kernel, by decide +kernel⟩
  have distinctLists : lists.Nodup := by decide +kernel
  have arrangedLists : Arranges [[ofUInt16 9], [ofUInt16 9, full], [zeros]] lists :=
    ⟨by decide +kernel, by decide +kernel⟩
  obtain ⟨once, sorts, -⟩ := arrangements ids distinct
  refine ⟨⟨by decide, (pairs full zeros).2.2.2.2.1 (by decide)⟩,
    ⟨rfl, (pairs (ofUInt16 0x100) (ofUInt16 9)).2.2.2.2.2 rfl⟩,
    ⟨by decide, by decide, (pairs (ofUInt16 0x100) pair).2.2.1 (by decide) (by decide)⟩,
    ⟨by decide, by decide, trans full (ofUInt16 9) zeros (by decide) (by decide)⟩,
    ⟨distinct, once.unique sorts arranged⟩, distinctLists, fun sorted arranges => ?_⟩
  exact (listArrangements lists distinctLists).1.unique arranges arrangedLists

end Identifier

end Proximity
