import Mathlib
import StructuralTypes.Binding.Operator

/-!
How often a text is repeated. The number of times is the integer part of a finite positive number,
and there are no other numbers of times; as a mathematical number it can be far larger than a
machine word. Counts are cut to 64 bits and lengths multiplied in 64 bits, and neither is ever seen:
a count that is cut, or a product that does not fit, belongs to a text that is too long anyway, or
to the empty one.
-/

namespace StructuralTypes

namespace Number

/-- The size of a finite number: the fraction stands behind the point, with a one before it unless
the exponent is the least. -/
def magnitude (n : Number) : ℚ :=
  if n.exponent = 0 then n.fraction / 2 ^ 52 * 2 ^ (-1022 : ℤ)
  else (1 + n.fraction / 2 ^ 52) * 2 ^ ((n.exponent : ℤ) - 1023)

def value (n : Number) : ℚ := if n.isNegative then -n.magnitude else n.magnitude

/-- The integer part, without bound, of a finite positive number, and zero of all others. -/
def times (n : Number) : Nat := if n.isFinite = true ∧ 0 < n.value then ⌊n.value⌋₊ else 0

theorem two_zpow_sub (exponent : ℤ) :
    (2 : ℚ) ^ (exponent - 1023) = 2 ^ 52 * 2 ^ (exponent - 1075) := by
  rw [← zpow_natCast, ← zpow_add₀ two_ne_zero]
  congr 1
  push_cast
  ring

theorem magnitude_eq (n : Number) : n.magnitude = n.significand * 2 ^ n.scale := by
  rw [magnitude, significand, scale]
  by_cases least : n.exponent = 0
  · have moved : (2 : ℚ) ^ (-1022 : ℤ) = 2 ^ 52 * 2 ^ ((max 0 1 : Nat) - 1075 : ℤ) := two_zpow_sub 1
    rw [if_pos least, if_pos least, least, moved]
    ring
  · have exponent : max n.exponent 1 = n.exponent := by omega
    rw [if_neg least, if_neg least, two_zpow_sub, exponent]
    push_cast
    ring

theorem value_of_negative {n : Number} (negative : n.isNegative = true) : n.value ≤ 0 := by
  have size : 0 ≤ n.magnitude := by
    rw [magnitude_eq]
    positivity
  rw [value, if_pos negative]
  linarith

theorem value_of_positive {n : Number} (positive : n.isNegative = false) :
    n.value = n.significand * 2 ^ n.scale := by
  rw [value, positive, if_neg Bool.false_ne_true, magnitude_eq]

theorem floor_of_large (significand up : Nat) :
    ⌊(significand : ℚ) * 2 ^ Int.ofNat up⌋₊ = significand <<< up := by
  have whole : (significand : ℚ) * 2 ^ Int.ofNat up = ((significand * 2 ^ up : Nat) : ℚ) := by
    push_cast
    rw [Int.ofNat_eq_natCast, zpow_natCast]
  rw [whole, Nat.floor_natCast, Nat.shiftLeft_eq]

theorem floor_of_small (significand down : Nat) :
    ⌊(significand : ℚ) * 2 ^ Int.negSucc down⌋₊ = significand >>> (down + 1) := by
  have quotient : (significand : ℚ) * 2 ^ Int.negSucc down =
      (significand : ℚ) / ((2 ^ (down + 1) : Nat) : ℚ) := by
    push_cast
    rw [zpow_negSucc, div_eq_mul_inv]
  rw [quotient, Nat.floor_div_natCast, Nat.floor_natCast, Nat.shiftRight_eq_div_pow]

theorem times_of_positive {n : Number} (finite : n.isFinite = true)
    (positive : n.isNegative = false) : n.times = ⌊(n.significand : ℚ) * 2 ^ n.scale⌋₊ := by
  rw [times, ← value_of_positive positive]
  by_cases more : 0 < n.value
  · rw [if_pos ⟨finite, more⟩]
  · rw [if_neg fun both => more both.2, Nat.floor_of_nonpos (not_lt.mp more)]

theorem integerPart_eq_times (n : Number) : n.integerPart = n.times := by
  by_cases finite : n.isFinite = true
  · cases sign : n.isNegative with
    | true =>
        have low := not_lt.mpr (value_of_negative sign)
        simp [integerPart, times, finite, sign, low]
    | false =>
        simp only [integerPart, finite, sign, Bool.not_false, Bool.and_self, if_pos]
        rw [times_of_positive finite sign]
        cases n.scale with
        | ofNat up => exact (floor_of_large n.significand up).symm
        | negSucc down => exact (floor_of_small n.significand down).symm
  · simp [integerPart, times, finite]

end Number

namespace Operator

theorem utf8ByteSize_repeated (text : String) (count : Nat) :
    (repeated text count).utf8ByteSize = text.utf8ByteSize * count := by
  rw [repeated]
  induction count with
  | zero => rfl
  | succ count ih =>
      rw [List.replicate_succ, String.join_cons, String.utf8ByteSize_append, ih, Nat.mul_succ,
        Nat.add_comm]

theorem repeated_eq_empty {text : String} {count : Nat}
    (zero : text.utf8ByteSize * count = 0) : repeated text count = "" := by
  rw [← String.utf8ByteSize_eq_zero_iff, utf8ByteSize_repeated, zero]

/-- A product that does not fit in 64 bits is above the limit, and one that is zero belongs to a
text that comes out empty. -/
theorem repeatText_eq_of_product (text : String) (count : Number) :
    repeatText text count =
      if text.utf8ByteSize * repeatCount count ≤ maxTextLength then
        .ok (repeated text (repeatCount count))
      else .error (.repeatTooLarge text.utf8ByteSize count) := by
  rw [repeatText, product?]
  by_cases fits : text.utf8ByteSize * repeatCount count < UInt64.size
  · rw [if_pos fits]
    split
    · next zero =>
        have empty := Option.some.inj zero
        rw [empty, if_pos (Nat.zero_le _), repeated_eq_empty empty]
    · next length _ same =>
        cases same
        rfl
    · next none => cases none
  · have large : ¬ text.utf8ByteSize * repeatCount count ≤ maxTextLength := by
      rw [maxTextLength]
      have size : UInt64.size = 18446744073709551616 := rfl
      omega
    rw [if_neg fits, if_neg large]

/-- A count that is cut is above the limit even for a text of one byte. -/
theorem product_repeatCount (length : Nat) (count : Number) :
    length * repeatCount count ≤ maxTextLength ↔ length * count.integerPart ≤ maxTextLength := by
  rw [repeatCount]
  by_cases kept : count.integerPart ≤ UInt64.size - 1
  · rw [Nat.min_eq_left kept]
  · have limit : maxTextLength < UInt64.size - 1 := by decide
    rw [Nat.min_eq_right (by omega)]
    rcases Nat.eq_zero_or_pos length with rfl | some
    · simp only [Nat.zero_mul]
    · have cut := Nat.le_mul_of_pos_left (UInt64.size - 1) some
      have whole := Nat.le_mul_of_pos_left count.integerPart some
      constructor <;> intro short <;> omega

theorem repeated_repeatCount {text : String} {count : Number}
    (short : text.utf8ByteSize * count.integerPart ≤ maxTextLength) :
    repeated text (repeatCount count) = repeated text count.integerPart := by
  rcases Nat.eq_zero_or_pos text.utf8ByteSize with empty | some
  · rw [repeated_eq_empty (by rw [empty, Nat.zero_mul]),
      repeated_eq_empty (by rw [empty, Nat.zero_mul])]
  · have limit : maxTextLength < UInt64.size - 1 := by decide
    have whole := Nat.le_mul_of_pos_left count.integerPart some
    rw [repeatCount, Nat.min_eq_left (by omega)]

theorem repeatText_eq (text : String) (count : Number) :
    repeatText text count =
      if text.utf8ByteSize * count.times ≤ maxTextLength then .ok (repeated text count.times)
      else .error (.repeatTooLarge text.utf8ByteSize count) := by
  rw [repeatText_eq_of_product, ← Number.integerPart_eq_times]
  by_cases short : text.utf8ByteSize * count.integerPart ≤ maxTextLength
  · rw [if_pos short, if_pos ((product_repeatCount _ count).mpr short), repeated_repeatCount short]
  · rw [if_neg short, if_neg (mt (product_repeatCount _ count).mp short)]

theorem apply_repeat (text : String) (count : Number) (left right : Ty) :
    multiply.apply ⟨.text text, left⟩ ⟨.number count, right⟩ =
      (repeatText text count).map fun repeated => ⟨.text repeated, .text⟩ := by
  simp only [apply]
  cases repeatText text count <;> rfl

end Operator

/-- A text times a number, of whatever types the two are bound to, is the text repeated as often as
the integer part of the number says, of type text, if that has at most `2 ^ 30` bytes in numbers
without bound, and is refused with the length and the number otherwise. What is built is as long as
this product says, so never longer. -/
theorem repetition_exact_and_bounded (text : String) (count : Number) (left right : Ty) :
    Operator.multiply.apply ⟨.text text, left⟩ ⟨.number count, right⟩ =
      (if text.utf8ByteSize * count.times ≤ 2 ^ 30 then
        .ok ⟨.text (String.join (List.replicate count.times text)), .text⟩
      else .error (.repeatTooLarge text.utf8ByteSize count)) ∧
    ∀ result, Operator.multiply.apply ⟨.text text, left⟩ ⟨.number count, right⟩ = .ok result →
      ∃ built, result = ⟨.text built, .text⟩ ∧
        built.utf8ByteSize = text.utf8ByteSize * count.times ∧ built.utf8ByteSize ≤ 2 ^ 30 := by
  have limit : maxTextLength = 2 ^ 30 := rfl
  rw [Operator.apply_repeat, Operator.repeatText_eq, limit]
  by_cases short : text.utf8ByteSize * count.times ≤ 2 ^ 30
  · rw [if_pos short, if_pos short]
    refine ⟨rfl, fun result same => ?_⟩
    cases same
    have size := Operator.utf8ByteSize_repeated text count.times
    exact ⟨_, rfl, size, size ▸ short⟩
  · rw [if_neg short, if_neg short]
    exact ⟨rfl, nofun⟩

namespace Number

def limit : Number := ⟨0x41D0000000000000⟩

def aboveLimit : Number := ⟨0x41D0000000400000⟩

def largest : Number := ⟨0x7FEFFFFFFFFFFFFF⟩

def threeAndHalf : Number := ⟨0x400C000000000000⟩

theorem times_limit : limit.times = 2 ^ 30 := by
  rw [← integerPart_eq_times]
  decide

theorem times_aboveLimit : aboveLimit.times = 2 ^ 30 + 1 := by
  rw [← integerPart_eq_times]
  decide

theorem times_largest : 2 ^ 64 < largest.times := by
  rw [← integerPart_eq_times]
  decide +kernel

theorem times_threeAndHalf : threeAndHalf.times = 3 := by
  rw [← integerPart_eq_times]
  decide

end Number

section

open Number

/-- A letter is repeated up to the limit and not once more, nor as often as no word can say; nothing
can be repeated that often. -/
theorem repetition_exact_and_bounded_at_limit :
    let letter : Binding := ⟨.text "a", .text⟩
    Operator.multiply.apply letter ⟨.number limit, .number⟩ =
      .ok ⟨.text (String.join (List.replicate (2 ^ 30) "a")), .text⟩ ∧
    Operator.multiply.apply letter ⟨.number aboveLimit, .number⟩ =
      .error (.repeatTooLarge 1 aboveLimit) ∧
    Operator.multiply.apply letter ⟨.number largest, .number⟩ =
      .error (.repeatTooLarge 1 largest) ∧
    Operator.multiply.apply ⟨.text "", .text⟩ ⟨.number largest, .number⟩ = .ok ⟨.text "", .text⟩ ∧
    Operator.multiply.apply ⟨.text "ha", .text⟩ ⟨.number threeAndHalf, .number⟩ =
      .ok ⟨.text "hahaha", .text⟩ ∧
    ∃ built, Binding.mk (.text "hahaha") .text = ⟨.text built, .text⟩ ∧
      built.utf8ByteSize = 2 * threeAndHalf.times ∧ built.utf8ByteSize ≤ 2 ^ 30 := by
  have letter : "a".utf8ByteSize = 1 := rfl
  obtain ⟨full, -⟩ := repetition_exact_and_bounded "a" limit .text .number
  obtain ⟨above, -⟩ := repetition_exact_and_bounded "a" aboveLimit .text .number
  obtain ⟨most, -⟩ := repetition_exact_and_bounded "a" largest .text .number
  obtain ⟨nothing, -⟩ := repetition_exact_and_bounded "" largest .text .number
  obtain ⟨short, built⟩ := repetition_exact_and_bounded "ha" threeAndHalf .text .number
  have large := times_largest
  have empty : String.join (List.replicate largest.times "") = "" :=
    Operator.repeated_eq_empty (Nat.zero_mul _)
  rw [times_limit, letter, if_pos (by omega)] at full
  rw [times_aboveLimit, letter, if_neg (by omega)] at above
  rw [letter, if_neg (by omega)] at most
  rw [empty, if_pos (Nat.zero_mul _ ▸ Nat.zero_le _)] at nothing
  rw [times_threeAndHalf, if_pos (by decide)] at short
  exact ⟨full, above, most, nothing, short, built _ short⟩

end

end StructuralTypes
