import Proximity.Bytes.Hex
import Proximity.Proofs.Bytes
import Mathlib.Data.List.Forall2
import Mathlib.Data.Nat.Digits.Defs

/-! Hexadecimal digits as numbers. Digits are read as the bytes of the number that they spell. -/

namespace Proximity.Hex

/-- The character is the digit of the value, in lower or in upper case. -/
def Digit (c : Char) (value : Nat) : Prop :=
  value < 16 ∧ (c = Nat.digitChar value ∨ c = (Nat.digitChar value).toUpper)

instance (c : Char) (value : Nat) : Decidable (Digit c value) :=
  inferInstanceAs (Decidable (_ ∧ _))

/-- One or more digits spell the number, the most significant one first. -/
def Numeral (digits : List Char) (n : Nat) : Prop :=
  digits ≠ [] ∧ ∃ values, List.Forall₂ Digit digits values ∧ Nat.ofDigits 16 values.reverse = n

theorem toNat_lt_of_digitValue? {c : Char} {b : UInt8} (h : digitValue? c = some b) :
    c.toNat < 128 := by
  simp only [digitValue?, Char.le_def, UInt32.le_iff_toNat_le] at h
  have code : c.val.toNat = c.toNat := rfl
  have nine : '9'.val.toNat = 57 := rfl
  have f : 'f'.val.toNat = 102 := rfl
  have upperF : 'F'.val.toNat = 70 := rfl
  split at h
  · omega
  · split at h
    · omega
    · split at h
      · omega
      · cases h

theorem digitValue?_eq_some_iff {c : Char} {b : UInt8} :
    digitValue? c = some b ↔ Digit c b.toNat := by
  constructor
  · have table : ∀ n < 128, ∀ b ∈ digitValue? (Char.ofNat n), Digit (Char.ofNat n) b.toNat := by
      decide +kernel
    intro h
    have := table c.toNat (toNat_lt_of_digitValue? h) b
    rw [Char.ofNat_toNat] at this
    exact this h
  · have table : ∀ value < 16, digitValue? (Nat.digitChar value) = some (UInt8.ofNat value) ∧
        digitValue? (Nat.digitChar value).toUpper = some (UInt8.ofNat value) := by
      decide
    rintro ⟨small, lower | upper⟩
    · rw [lower, (table _ small).1, UInt8.ofNat_toNat]
    · rw [upper, (table _ small).2, UInt8.ofNat_toNat]

theorem exists_digitValue? {c : Char} {value : Nat} (digit : Digit c value) :
    ∃ b : UInt8, digitValue? c = some b ∧ b.toNat = value := by
  have small := digit.1
  have same : (UInt8.ofNat value).toNat = value := by
    rw [UInt8.toNat_ofNat']
    omega
  exact ⟨UInt8.ofNat value, digitValue?_eq_some_iff.mpr (by rwa [same]), same⟩

theorem ofDigits_pair {high low : Nat} {later : List Nat} :
    Nat.ofDigits 16 (high :: low :: later).reverse =
      16 ^ later.length * (16 * high + low) + Nat.ofDigits 16 later.reverse := by
  simp only [List.reverse_cons, List.append_assoc, List.cons_append, List.nil_append,
    Nat.ofDigits_append, List.length_reverse, Nat.ofDigits_cons, Nat.ofDigits_nil]
  ring

theorem exists_readPairs? {digits : List Char} {values : List Nat}
    (spelled : List.Forall₂ Digit digits values) (even : digits.length % 2 = 0) :
    ∃ bytes, readPairs? digits = some bytes ∧ digits.length = 2 * bytes.length ∧
      Bytes.value bytes = Nat.ofDigits 16 values.reverse := by
  match digits, values, spelled with
  | [], [], .nil => exact ⟨[], rfl, rfl, rfl⟩
  | [_], _, _ => cases even
  | high :: low :: rest, h :: l :: later, .cons isHigh (.cons isLow others) =>
    obtain ⟨b, readsHigh, rfl⟩ := exists_digitValue? isHigh
    obtain ⟨c, readsLow, rfl⟩ := exists_digitValue? isLow
    have shorter : rest.length % 2 = 0 := by
      simp only [List.length_cons] at even
      omega
    obtain ⟨bytes, readsRest, length, number⟩ := exists_readPairs? others shorter
    refine ⟨(16 * b + c) :: bytes, ?_, ?_, ?_⟩
    · rw [readPairs?, readsHigh, readsLow, readsRest]
      rfl
    · simp only [List.length_cons]
      omega
    · have upper := isHigh.1
      have lower := isLow.1
      have byte : (16 * b + c).toNat = 16 * b.toNat + c.toNat := by
        rw [UInt8.toNat_add, UInt8.toNat_mul]
        change (16 * b.toNat % 256 + c.toNat) % 256 = _
        omega
      rw [ofDigits_pair, Bytes.value_cons, byte, number, ← others.length_eq, length, pow_mul,
        show 16 ^ 2 = 256 from rfl]

theorem spelled_of_readPairs? {digits : List Char} {bytes : Bytes}
    (h : readPairs? digits = some bytes) :
    digits.length % 2 = 0 ∧ ∃ values, List.Forall₂ Digit digits values := by
  match digits with
  | [] => exact ⟨rfl, [], .nil⟩
  | [_] => cases h
  | high :: low :: rest =>
    obtain ⟨b, readsHigh, h⟩ := Option.bind_eq_some_iff.mp h
    obtain ⟨c, readsLow, h⟩ := Option.bind_eq_some_iff.mp h
    obtain ⟨later, readsRest, -⟩ := Option.bind_eq_some_iff.mp h
    obtain ⟨even, values, spelled⟩ := spelled_of_readPairs? readsRest
    refine ⟨?_, b.toNat :: c.toNat :: values, .cons (digitValue?_eq_some_iff.mp readsHigh)
      (.cons (digitValue?_eq_some_iff.mp readsLow) spelled)⟩
    simp only [List.length_cons]
    omega

theorem digit_zero : Digit '0' 0 := by decide

/-- Digits are read whether their number is even or odd. -/
theorem exists_read? {digits : List Char} {n : Nat} (numeral : Numeral digits n) :
    ∃ bytes, read? digits = some bytes ∧ Bytes.value bytes = n := by
  obtain ⟨nonempty, values, spelled, rfl⟩ := numeral
  have notEmpty : ¬ digits.isEmpty := by simpa using nonempty
  rw [read?, if_neg notEmpty]
  by_cases odd : digits.length % 2 = 1
  · have even : ('0' :: digits).length % 2 = 0 := by
      rw [List.length_cons]
      omega
    obtain ⟨bytes, reads, -, number⟩ := exists_readPairs? (.cons digit_zero spelled) even
    rw [if_pos odd]
    refine ⟨bytes, reads, ?_⟩
    rw [number, List.reverse_cons, Nat.ofDigits_append_zero]
  · obtain ⟨bytes, reads, -, number⟩ := exists_readPairs? spelled (by omega)
    rw [if_neg odd]
    exact ⟨bytes, reads, number⟩

theorem numeral_of_read? {digits : List Char} {bytes : Bytes} (h : read? digits = some bytes) :
    Numeral digits (Bytes.value bytes) := by
  obtain ⟨nonempty, values, spelled⟩ :
      digits ≠ [] ∧ ∃ values, List.Forall₂ Digit digits values := by
    unfold read? at h
    split at h
    · cases h
    · rename_i nonempty
      refine ⟨by simpa using nonempty, ?_⟩
      split at h
      · obtain ⟨-, values, spelled⟩ := spelled_of_readPairs? h
        cases spelled with
        | cons _ spelled => exact ⟨_, spelled⟩
      · exact (spelled_of_readPairs? h).2
  obtain ⟨same, reads, number⟩ := exists_read? ⟨nonempty, values, spelled, rfl⟩
  cases h.symm.trans reads
  exact ⟨nonempty, values, spelled, number.symm⟩

theorem length_of_readPairs? {digits : List Char} {bytes : Bytes}
    (h : readPairs? digits = some bytes) : digits.length = 2 * bytes.length := by
  obtain ⟨even, values, spelled⟩ := spelled_of_readPairs? h
  obtain ⟨same, reads, length, -⟩ := exists_readPairs? spelled even
  cases h.symm.trans reads
  exact length

/-- Each byte takes two digits, but the first of an odd number of digits is a byte of its own. -/
theorem length_of_read? {digits : List Char} {bytes : Bytes} (h : read? digits = some bytes) :
    bytes.length = (digits.length + 1) / 2 := by
  unfold read? at h
  split at h
  · cases h
  · split at h
    · have length := length_of_readPairs? h
      rw [List.length_cons] at length
      omega
    · have length := length_of_readPairs? h
      omega

theorem read?_eq_some_iff {digits : List Char} {bytes : Bytes} :
    read? digits = some bytes ↔
      bytes.length = (digits.length + 1) / 2 ∧ Numeral digits (Bytes.value bytes) := by
  refine ⟨fun reads => ⟨length_of_read? reads, numeral_of_read? reads⟩, ?_⟩
  rintro ⟨length, numeral⟩
  obtain ⟨same, reads, number⟩ := exists_read? numeral
  rw [reads, Bytes.eq_of_value_eq ((length_of_read? reads).trans length.symm) number]

theorem isDigit_iff {c : Char} : isDigit c ↔ ∃ value, Digit c value := by
  rw [isDigit, Option.isSome_iff_exists]
  constructor
  · rintro ⟨b, reads⟩
    exact ⟨b.toNat, digitValue?_eq_some_iff.mp reads⟩
  · rintro ⟨value, digit⟩
    obtain ⟨b, reads, -⟩ := exists_digitValue? digit
    exact ⟨b, reads⟩

theorem isDigit_of_isDigit {c : Char} (decimal : c.isDigit) : isDigit c := by
  have range : '0' ≤ c ∧ c ≤ '9' := by simpa [Char.isDigit, Char.le_def] using decimal
  rw [isDigit, digitValue?, if_pos range]
  rfl

theorem exists_values_iff {digits : List Char} :
    (∃ values, List.Forall₂ Digit digits values) ↔ ∀ c ∈ digits, isDigit c := by
  induction digits with
  | nil => simp
  | cons c digits ih =>
    rw [List.forall_mem_cons, ← ih, isDigit_iff]
    constructor
    · rintro ⟨values, spelled⟩
      cases spelled with
      | cons digit others => exact ⟨⟨_, digit⟩, _, others⟩
    · rintro ⟨⟨value, digit⟩, values, others⟩
      exact ⟨value :: values, .cons digit others⟩

theorem exists_numeral_iff {digits : List Char} :
    (∃ n, Numeral digits n) ↔ digits ≠ [] ∧ ∀ c ∈ digits, isDigit c := by
  rw [← exists_values_iff]
  constructor
  · rintro ⟨n, nonempty, values, spelled, -⟩
    exact ⟨nonempty, values, spelled⟩
  · rintro ⟨nonempty, values, spelled⟩
    exact ⟨_, nonempty, values, spelled, rfl⟩

theorem Numeral.not_mem {digits : List Char} {n : Nat} (numeral : Numeral digits n) {mark : Char}
    (other : isDigit mark = false) : mark ∉ digits := fun member => by
  have digit := (exists_numeral_iff.mp ⟨n, numeral⟩).2 mark member
  rw [other] at digit
  cases digit

/-- The characters are the same letter, in either case, or the same other character. -/
def SameButCase (c c' : Char) : Prop := c' = c ∨ c' = c.toLower ∨ c' = c.toUpper

theorem Digit.sameButCase {c c' : Char} {value : Nat} (digit : Digit c value)
    (same : SameButCase c c') : Digit c' value := by
  have table : ∀ value < 16, (Nat.digitChar value).toLower = Nat.digitChar value ∧
      (Nat.digitChar value).toUpper.toLower = Nat.digitChar value ∧
      (Nat.digitChar value).toUpper.toUpper = (Nat.digitChar value).toUpper := by
    decide
  obtain ⟨small, shape⟩ := digit
  obtain ⟨lower, back, twice⟩ := table value small
  refine ⟨small, ?_⟩
  rcases same with rfl | rfl | rfl
  · exact shape
  · rcases shape with rfl | rfl
    · exact .inl lower
    · exact .inl back
  · rcases shape with rfl | rfl
    · exact .inr rfl
    · exact .inr twice

theorem Numeral.sameButCase {digits recased : List Char} {n : Nat} (numeral : Numeral digits n)
    (same : List.Forall₂ SameButCase digits recased) : Numeral recased n := by
  obtain ⟨nonempty, values, spelled, rfl⟩ := numeral
  refine ⟨fun empty => ?_, values, ?_, rfl⟩
  · subst empty
    cases same
    exact nonempty rfl
  · clear nonempty
    induction same generalizing values with
    | nil => exact spelled
    | cons first _ ih =>
      cases spelled with
      | cons digit others => exact .cons (digit.sameButCase first) (ih _ others)

/-- Zeros in front change no number. -/
theorem Numeral.zeros {digits : List Char} {n : Nat} (numeral : Numeral digits n) (k : Nat) :
    Numeral (List.replicate k '0' ++ digits) n := by
  induction k with
  | zero => exact numeral
  | succ k ih =>
    obtain ⟨-, values, spelled, number⟩ := ih
    refine ⟨List.cons_ne_nil _ _, 0 :: values, .cons digit_zero spelled, ?_⟩
    rw [List.reverse_cons, Nat.ofDigits_append_zero, number]

theorem digitValue?_digitChar {value : Nat} (small : value < 16) :
    digitValue? (Nat.digitChar value) = some (UInt8.ofNat value) := by
  obtain ⟨b, reads, rfl⟩ := exists_digitValue? ⟨small, Or.inl rfl⟩
  rw [reads, UInt8.ofNat_toNat]

theorem readPairs?_write (bytes : Bytes) : readPairs? (write bytes) = some bytes := by
  induction bytes with
  | nil => rfl
  | cons b bytes ih =>
    have high : b.toNat / 16 < 16 := by
      have := b.toNat_lt
      omega
    have low : b.toNat % 16 < 16 := Nat.mod_lt _ (by decide)
    have halves : 16 * UInt8.ofNat (b.toNat / 16) + UInt8.ofNat (b.toNat % 16) = b := by
      apply UInt8.toNat_inj.mp
      rw [UInt8.toNat_add, UInt8.toNat_mul, UInt8.toNat_ofNat', UInt8.toNat_ofNat']
      change (16 * (b.toNat / 16 % 256) % 256 + b.toNat % 16 % 256) % 256 = b.toNat
      omega
    rw [write, List.flatMap_cons, digits, List.cons_append, List.cons_append, List.nil_append,
      readPairs?, digitValue?_digitChar high, digitValue?_digitChar low, ← write, ih]
    simp [halves]

/-- Bytes are read back as they were written. -/
theorem read?_write {bytes : Bytes} (nonempty : bytes ≠ []) : read? (write bytes) = some bytes := by
  have length := length_write bytes
  have positive := List.length_pos_iff.mpr nonempty
  have digits : ¬ (write bytes).isEmpty := by
    rw [List.isEmpty_iff_length_eq_zero]
    omega
  have even : ¬ (write bytes).length % 2 = 1 := by omega
  rw [read?, if_neg digits, if_neg even, readPairs?_write]

theorem isDigit_of_mem_write {bytes : Bytes} {c : Char} (member : c ∈ write bytes) : isDigit c := by
  obtain ⟨b, -, half⟩ := List.mem_flatMap.mp member
  have isDigit_digitChar {value : Nat} (small : value < 16) : isDigit (Nat.digitChar value) := by
    rw [isDigit, digitValue?_digitChar small]
    rfl
  rcases List.mem_pair.mp half with rfl | rfl
  · have := b.toNat_lt
    exact isDigit_digitChar (by omega)
  · exact isDigit_digitChar (Nat.mod_lt _ (by decide))

theorem digitValue?_toUpper_digitChar {value : Nat} (small : value < 16) :
    digitValue? (Nat.digitChar value).toUpper = some (UInt8.ofNat value) := by
  revert value
  decide +kernel

/-- Bytes with the same upper-case digits are the same. -/
theorem upperDigits_injective : Function.Injective upperDigits := by
  intro a b same
  have inj {m n : Nat} (small : m < 16) (small' : n < 16)
      (digit : (Nat.digitChar m).toUpper = (Nat.digitChar n).toUpper) : m = n := by
    have value := digitValue?_toUpper_digitChar small
    rw [digit, digitValue?_toUpper_digitChar small', Option.some_inj, ← UInt8.toNat_inj] at value
    simpa [Nat.mod_eq_of_lt (Nat.lt_trans small' (by decide : 16 < 256)),
      Nat.mod_eq_of_lt (Nat.lt_trans small (by decide : 16 < 256))] using value.symm
  have := a.toNat_lt
  have := b.toNat_lt
  obtain ⟨high, low⟩ :
      (Nat.digitChar (a.toNat / 16)).toUpper = (Nat.digitChar (b.toNat / 16)).toUpper ∧
        (Nat.digitChar (a.toNat % 16)).toUpper = (Nat.digitChar (b.toNat % 16)).toUpper := by
    simpa [upperDigits, digits] using same
  have highSame := inj (by omega) (by omega) high
  have lowSame := inj (Nat.mod_lt _ (by decide)) (Nat.mod_lt _ (by decide)) low
  apply UInt8.toNat_inj.mp
  omega

theorem isDigit_of_mem_upperDigits {b : UInt8} {c : Char} (member : c ∈ upperDigits b) :
    isDigit c := by
  have := b.toNat_lt
  rcases List.mem_pair.mp member with rfl | rfl
  · rw [isDigit, digitValue?_toUpper_digitChar (by omega)]
    rfl
  · rw [isDigit, digitValue?_toUpper_digitChar (Nat.mod_lt _ (by decide))]
    rfl

end Proximity.Hex
