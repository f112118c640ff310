import Proximity.Bytes
import Mathlib.Data.List.Induction
import Mathlib.Tactic.Ring

/-! Byte strings as numbers: writing a number in bytes and reading bytes as a number undo each
other, up to the bytes that a width leaves out and the bits that a word leaves out. -/

namespace Proximity

namespace Bytes

theorem foldl_value (bytes : Bytes) (start : Nat) :
    bytes.foldl (fun total b => 256 * total + b.toNat) start =
      256 ^ bytes.length * start + value bytes := by
  induction bytes generalizing start with
  | nil => simp [value]
  | cons b bytes ih =>
    have first : value (b :: bytes) = 256 ^ bytes.length * b.toNat + value bytes := by
      rw [value, List.foldl_cons, ih]
      simp
    rw [List.foldl_cons, ih, first, List.length_cons, pow_succ]
    ring

@[simp] theorem value_nil : value [] = 0 := rfl

theorem value_cons (b : UInt8) (bytes : Bytes) :
    value (b :: bytes) = 256 ^ bytes.length * b.toNat + value bytes := by
  rw [value, List.foldl_cons, foldl_value]
  simp

theorem value_append (front back : Bytes) :
    value (front ++ back) = 256 ^ back.length * value front + value back := by
  rw [value, List.foldl_append, foldl_value]
  rfl

theorem value_concat (bytes : Bytes) (b : UInt8) :
    value (bytes ++ [b]) = 256 * value bytes + b.toNat := by
  simp [value_append, value_cons]

theorem value_lt (bytes : Bytes) : value bytes < 256 ^ bytes.length := by
  induction bytes with
  | nil => simp
  | cons b bytes ih =>
    have byte := b.toNat_lt
    have scaled := Nat.mul_le_mul_left (256 ^ bytes.length) (show b.toNat + 1 ≤ 256 by omega)
    rw [Nat.mul_add] at scaled
    rw [value_cons, List.length_cons, pow_succ]
    omega

theorem value_lt_of_length_le {bytes : Bytes} {width : Nat} (short : bytes.length ≤ width) :
    value bytes < 256 ^ width :=
  Nat.lt_of_lt_of_le (value_lt bytes) (Nat.pow_le_pow_right (by decide) short)

@[simp] theorem value_zeros (n : Nat) : value (List.replicate n 0) = 0 := by
  induction n with
  | zero => rfl
  | succ n ih => simp [List.replicate_succ, value_cons, ih]

/-- Of a number written in `width` bytes the last `width` digits are read back. -/
theorem value_ofNat (width n : Nat) : value (ofNat width n) = n % 256 ^ width := by
  induction width generalizing n with
  | zero => simp [ofNat, Nat.mod_one]
  | succ width ih =>
    rw [ofNat, value_concat, ih, UInt8.toNat_ofNat', pow_succ' 256 width, Nat.mod_mul]
    omega

/-- Bytes are written again as they were read. -/
theorem ofNat_value (bytes : Bytes) : ofNat bytes.length (value bytes) = bytes := by
  induction bytes using List.reverseRecOn with
  | nil => rfl
  | append_singleton bytes b ih =>
    have byte := b.toNat_lt
    have quotient : (256 * value bytes + b.toNat) / 256 = value bytes := by omega
    rw [List.length_append, List.length_singleton, ofNat, value_concat, quotient, ih]
    congr 2
    apply UInt8.toNat_inj.mp
    rw [UInt8.toNat_ofNat']
    omega

theorem eq_of_value_eq {a b : Bytes} (length : a.length = b.length) (same : value a = value b) :
    a = b := by
  rw [← ofNat_value a, ← ofNat_value b, length, same]

theorem fit_of_length_le {bytes : Bytes} {width : Nat} (short : bytes.length ≤ width) :
    fit width bytes = List.replicate (width - bytes.length) 0 ++ bytes := by
  rw [fit, Nat.sub_eq_zero_of_le short, List.drop_zero]

theorem fit_of_le_length {bytes : Bytes} {width : Nat} (long : width ≤ bytes.length) :
    fit width bytes = bytes.drop (bytes.length - width) := by
  rw [fit, Nat.sub_eq_zero_of_le long, List.replicate_zero, List.nil_append]

/-- Fitting bytes to a width keeps the last digits of the number that they spell. -/
theorem value_fit (width : Nat) (bytes : Bytes) :
    value (fit width bytes) = value bytes % 256 ^ width := by
  rcases Nat.le_total bytes.length width with short | long
  · rw [fit_of_length_le short, value_append, value_zeros, Nat.mul_zero, Nat.zero_add,
      Nat.mod_eq_of_lt (value_lt_of_length_le short)]
  · have kept : (bytes.drop (bytes.length - width)).length = width := by
      rw [List.length_drop]
      omega
    have split := value_append (bytes.take (bytes.length - width))
      (bytes.drop (bytes.length - width))
    rw [List.take_append_drop, kept] at split
    rw [fit_of_le_length long, split, Nat.mul_add_mod,
      Nat.mod_eq_of_lt (value_lt_of_length_le (Nat.le_of_eq kept))]

theorem toNat_word_step (total : UInt64) (b : UInt8) :
    (total <<< 8 ||| b.toUInt64).toNat = (256 * total.toNat + b.toNat) % 2 ^ 64 := by
  have byte : b.toNat < 2 ^ 8 := b.toNat_lt
  have shifted : total.toNat <<< 8 % 2 ^ 64 = (total.toNat % 2 ^ 56) <<< 8 := by
    rw [Nat.shiftLeft_eq, Nat.shiftLeft_eq]
    omega
  rw [UInt64.toNat_or, UInt64.toNat_shiftLeft, UInt8.toNat_toUInt64,
    show (8 : UInt64).toNat % 64 = 8 from rfl, shifted, ← Nat.shiftLeft_add_eq_or_of_lt byte,
    Nat.shiftLeft_eq]
  omega

/-- A word holds the number that its bytes spell modulo `2 ^ 64`. -/
theorem toNat_word (bytes : Bytes) : (word bytes).toNat = value bytes % 2 ^ 64 := by
  induction bytes using List.reverseRecOn with
  | nil => rfl
  | append_singleton bytes b ih =>
    rw [word, List.foldl_append, List.foldl_cons, List.foldl_nil, toNat_word_step, ← word, ih,
      value_concat]
    omega

/-- The word of up to eight bytes holds the number that they spell. -/
theorem toNat_word_of_length_le {bytes : Bytes} (short : bytes.length ≤ 8) :
    (word bytes).toNat = value bytes := by
  rw [toNat_word, Nat.mod_eq_of_lt (by simpa using value_lt_of_length_le short)]

theorem toNat_toUInt32_word {bytes : Bytes} (short : bytes.length ≤ 4) :
    (word bytes).toUInt32.toNat = value bytes := by
  rw [UInt64.toNat_toUInt32, toNat_word_of_length_le (by omega),
    Nat.mod_eq_of_lt (by simpa using value_lt_of_length_le short)]

/-- A word that is fitted to a width and read again keeps the bytes that the width has room for. -/
theorem toNat_word_fit_ofNat (width : Nat) (n : UInt64) :
    (word (fit width (ofNat 8 n.toNat))).toNat = n.toNat % 256 ^ width := by
  have bound : n.toNat < 2 ^ 64 := n.toNat_lt
  have small := Nat.lt_of_le_of_lt (Nat.mod_le n.toNat (256 ^ width)) bound
  rw [toNat_word, value_fit, value_ofNat, Nat.mod_eq_of_lt (a := n.toNat) (by simpa using bound),
    Nat.mod_eq_of_lt small]

/-- Up to eight bytes are written again as they were read as a word. -/
theorem fit_ofNat_word {bytes : Bytes} (short : bytes.length ≤ 8) :
    fit bytes.length (ofNat 8 (word bytes).toNat) = bytes := by
  apply eq_of_value_eq (length_fit _ _)
  rw [value_fit, value_ofNat, toNat_word_of_length_le short,
    Nat.mod_eq_of_lt (value_lt_of_length_le short), Nat.mod_eq_of_lt (value_lt bytes)]

/-- A single byte that is fitted to a wider place is the low byte there. -/
theorem toUInt8_word_fit_singleton {width : Nat} (wide : 0 < width) (b : UInt8) :
    (word (fit width [b])).toUInt8 = b := by
  have byte := b.toNat_lt
  have room : b.toNat < 256 ^ width :=
    Nat.lt_of_lt_of_le (by simpa using byte) (Nat.pow_le_pow_right (show 0 < 256 by decide) wide)
  apply UInt8.toNat_inj.mp
  rw [UInt64.toNat_toUInt8, toNat_word, value_fit, value_cons, value_nil, List.length_nil, pow_zero,
    Nat.one_mul, Nat.add_zero, Nat.mod_eq_of_lt room]
  omega

theorem toUInt8_word_singleton (b : UInt8) : (word [b]).toUInt8 = b := by
  have := toUInt8_word_fit_singleton (show 0 < 1 by decide) b
  rwa [show [b] = fit [b].length [b] from (fit_length [b]).symm]

/-- Only the number that bytes spell counts when they are fitted to a width. -/
theorem fit_eq_ofNat (width : Nat) (bytes : Bytes) : fit width bytes = ofNat width (value bytes) :=
  eq_of_value_eq (by simp) (by rw [value_fit, value_ofNat])

theorem value_dropWhile_zero (bytes : Bytes) : value (bytes.dropWhile (· == 0)) = value bytes := by
  induction bytes with
  | nil => rfl
  | cons b bytes ih =>
    rw [List.dropWhile_cons]
    split
    · rename_i zero
      rw [ih, value_cons, eq_of_beq zero]
      simp
    · rfl

/-- Behind the leading zeros there are as many bytes as the number calls for. -/
theorem length_dropWhile_zero_le_iff {bytes : Bytes} {most : Nat} :
    (bytes.dropWhile (· == 0)).length ≤ most ↔ value bytes < 256 ^ most := by
  rw [← value_dropWhile_zero]
  constructor
  · exact value_lt_of_length_le
  · intro small
    have nonzero := List.head_dropWhile_not (· == (0 : UInt8)) (l := bytes)
    cases significant : bytes.dropWhile (· == 0) with
    | nil => exact Nat.zero_le most
    | cons b later =>
      have first := nonzero (by simp [significant])
      simp only [significant, List.head_cons, beq_eq_false_iff_ne, ne_eq] at first
      have positive : 1 ≤ b.toNat :=
        Nat.pos_of_ne_zero fun zero => first (UInt8.toNat_inj.mp zero)
      rw [significant, value_cons] at small
      have power : 256 ^ later.length < 256 ^ most :=
        Nat.lt_of_le_of_lt (Nat.le_trans (Nat.le_mul_of_pos_right _ positive)
          (Nat.le_add_right _ _)) small
      exact (Nat.pow_lt_pow_iff_right (by decide)).mp power

theorem value_eq_zero {bytes : Bytes} (zeros : ∀ b ∈ bytes, b = 0) : value bytes = 0 := by
  rw [List.eq_replicate_of_mem zeros, value_zeros]

/-- A word holds the last eight bytes. -/
theorem fit_eight (bytes : Bytes) : fit 8 bytes = ofNat 8 (word bytes).toNat := by
  apply eq_of_value_eq (by simp)
  rw [value_fit, value_ofNat, toNat_word]
  norm_num

theorem ofNat_eight_inj {m n : UInt64} : ofNat 8 m.toNat = ofNat 8 n.toNat ↔ m = n := by
  refine ⟨fun same => ?_, fun same => by rw [same]⟩
  have values := congrArg value same
  have boundM : m.toNat < 2 ^ 64 := m.toNat_lt
  have boundN : n.toNat < 2 ^ 64 := n.toNat_lt
  rw [value_ofNat, value_ofNat] at values
  exact UInt64.toNat_inj.mp (by omega)

/-- The low byte of a word is the last byte. -/
theorem fit_one (bytes : Bytes) : fit 1 bytes = [(word bytes).toUInt8] := by
  apply eq_of_value_eq (by simp)
  rw [value_fit, value_cons, value_nil, UInt64.toNat_toUInt8, toNat_word]
  simp

/-- What lies within data is cut out of it with any more behind. -/
theorem take_drop_append {data : Bytes} {start length : Nat} (tail : Bytes)
    (inside : start + length ≤ data.length) :
    ((data ++ tail).drop start).take length = (data.drop start).take length := by
  rw [List.drop_append_of_le_length (by omega),
    List.take_append_of_le_length (by rw [List.length_drop]; omega)]

theorem prefix_drop_append_iff {part data : Bytes} {start : Nat} (tail : Bytes)
    (inside : start + part.length ≤ data.length) :
    part <+: (data ++ tail).drop start ↔ part <+: data.drop start := by
  rw [List.prefix_iff_eq_take, List.prefix_iff_eq_take, take_drop_append tail inside]

theorem getLast?_eq_toUInt8_word {bytes : Bytes} (nonempty : bytes ≠ []) :
    bytes.getLast? = some (word bytes).toUInt8 := by
  obtain ⟨last, isLast⟩ := Option.isSome_iff_exists.mp (List.getLast?_isSome.mpr nonempty)
  obtain ⟨front, rfl⟩ := List.getLast?_eq_some_iff.mp isLast
  have byte := last.toNat_lt
  rw [isLast, Option.some.injEq]
  apply UInt8.toNat_inj.mp
  rw [UInt64.toNat_toUInt8, toNat_word, value_concat]
  omega

theorem toNat_toUInt16_word_pair (low high : UInt8) :
    (word [high, low]).toUInt16.toNat = low.toNat + 256 * high.toNat := by
  have first := low.toNat_lt
  have second := high.toNat_lt
  have value : value [high, low] = low.toNat + 256 * high.toNat := by
    simp [value]
    omega
  rw [UInt64.toNat_toUInt16, toNat_word_of_length_le (by simp), value]
  omega

/-- Bytes that are fitted to a width and back keep or lose each byte. -/
theorem getElem?_fit_fit (bytes : Bytes) (width k : Nat) :
    (fit bytes.length (fit width bytes))[k]? = bytes[k]? ∨
      (fit bytes.length (fit width bytes))[k]? = some 0 := by
  -- A narrower width costs leading bytes, and zeros take their places.
  rcases Nat.le_total width bytes.length with narrow | wide
  · have padded : fit bytes.length (fit width bytes) =
        List.replicate (bytes.length - width) 0 ++ bytes.drop (bytes.length - width) := by
      rw [fit_of_length_le (by rwa [length_fit]), length_fit, fit_of_le_length narrow]
    by_cases lost : k < bytes.length - width
    · right
      rw [padded, List.getElem?_append_left (by simpa using lost), List.getElem?_replicate,
        if_pos lost]
    · left
      rw [padded, List.getElem?_append_right (by simpa using lost), List.length_replicate,
        List.getElem?_drop]
      congr 1
      omega
  · left
    congr 1
    apply eq_of_value_eq (length_fit _ _)
    rw [value_fit, value_fit, Nat.mod_eq_of_lt (value_lt_of_length_le wide),
      Nat.mod_eq_of_lt (value_lt bytes)]

end Bytes

theorem ByteOrder.mem_arrange {order : ByteOrder} {bytes : Bytes} {b : UInt8} :
    b ∈ order.arrange bytes ↔ b ∈ bytes := by
  cases order <;> simp [arrange]

theorem ByteOrder.getElem?_arrange_fit_fit (order : ByteOrder) (bytes : Bytes) (width : Nat)
    {k : Nat} (inside : k < bytes.length) :
    (order.arrange (Bytes.fit bytes.length (Bytes.fit width bytes)))[k]? =
        (order.arrange bytes)[k]? ∨
      (order.arrange (Bytes.fit bytes.length (Bytes.fit width bytes)))[k]? = some 0 := by
  cases order with
  | big => exact Bytes.getElem?_fit_fit bytes width k
  | little =>
    simp only [arrange]
    rw [List.getElem?_reverse (by simpa using inside), List.getElem?_reverse inside,
      Bytes.length_fit]
    exact Bytes.getElem?_fit_fit bytes width _

end Proximity
