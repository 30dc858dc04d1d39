import HackAssembler.Operand

/-!
# The value of a numeral

Reading a numeral digit by digit into sixteen bits gives the number that the digits denote, cut to
sixteen bits, and the mark that goes with it is set exactly if that number is too large for an
address. Nothing is lost from sight while the low bits wrap around: once the value has left sixteen
bits, the mark stays.
-/

set_option autoImplicit false

namespace HackAssembler

theorem toNat_maxAddress : maxAddress.toNat = 32767 := rfl

theorem ofNat_le_maxAddress_iff {n : Nat} (small : n < 65536) :
    UInt16.ofNat n ≤ maxAddress ↔ n ≤ 32767 := by
  rw [UInt16.le_iff_toNat_le, UInt16.toNat_ofNat', Nat.mod_eq_of_lt small, toNat_maxAddress]

namespace Literal

/-- The number that a text of decimal digits denotes. -/
def value (text : String) : Nat := Nat.ofDigitChars 10 text.toList 0

theorem shiftIn_ofNat (n : Nat) (digit : Char) :
    shiftIn ⟨UInt16.ofNat n, decide (UInt16.size ≤ n)⟩ digit =
      ⟨UInt16.ofNat (10 * n + (digit.toNat - '0'.toNat)),
        decide (UInt16.size ≤ 10 * n + (digit.toNat - '0'.toNat))⟩ := by
  generalize added : digit.toNat - '0'.toNat = value
  have low : UInt16.ofNat n * 10 + UInt16.ofNat value = UInt16.ofNat (10 * n + value) := by
    rw [UInt16.ofNat_add, UInt16.ofNat_mul, UInt16.mul_comm]
    rfl
  have lost : (UInt16.size ≤ n ∨ UInt16.size ≤ n % 2 ^ 16 * 10 + value) ↔
      UInt16.size ≤ 10 * n + value := by
    have size : UInt16.size = 2 ^ 16 := rfl
    omega
  simp only [shiftIn, added, Nat.toUInt16_eq, low, UInt16.toNat_ofNat', ← Bool.decide_or, lost]

theorem foldl_shiftIn (digits : List Char) :
    digits.foldl shiftIn ⟨0, false⟩ =
      ⟨UInt16.ofNat (Nat.ofDigitChars 10 digits 0),
        decide (UInt16.size ≤ Nat.ofDigitChars 10 digits 0)⟩ := by
  -- The invariant of the fold: the low bits of what is read so far, and whether bits are lost.
  have run (n : Nat) : digits.foldl shiftIn ⟨UInt16.ofNat n, decide (UInt16.size ≤ n)⟩ =
      ⟨UInt16.ofNat (Nat.ofDigitChars 10 digits n),
        decide (UInt16.size ≤ Nat.ofDigitChars 10 digits n)⟩ := by
    induction digits generalizing n with
    | nil => rfl
    | cons digit rest ih => rw [List.foldl_cons, shiftIn_ofNat, ih, Nat.ofDigitChars_cons]
  exact run 0

theorem ofDigits_eq (digits : List Char) :
    ofDigits digits = ⟨UInt16.ofNat (Nat.ofDigitChars 10 digits 0),
      decide (maxAddress.toNat < Nat.ofDigitChars 10 digits 0)⟩ := by
  generalize read : Nat.ofDigitChars 10 digits 0 = n
  have large : (UInt16.size ≤ n ∨ maxAddress < UInt16.ofNat n) ↔ maxAddress.toNat < n := by
    have size : UInt16.size = 2 ^ 16 := rfl
    rw [UInt16.lt_iff_toNat_lt, UInt16.toNat_ofNat', toNat_maxAddress]
    omega
  simp only [ofDigits, foldl_shiftIn, read, ← Bool.decide_or, large]

/-- What is read from a numeral is its value, cut to sixteen bits and marked if it is too large. -/
theorem ofText?_eq_some {text : String} (numeral : isNumeral text = true) :
    ofText? text =
      some ⟨UInt16.ofNat (value text), decide (maxAddress.toNat < value text)⟩ := by
  rw [ofText?, if_pos numeral, ofDigits_eq, value]

theorem ofText?_eq_none {text : String} (name : isNumeral text = false) : ofText? text = none := by
  simp [ofText?, name]

/-! ## Decimal numerals -/

theorem isDigit_of_mem_toString {n : Nat} {c : Char} (found : c ∈ (toString n).toList) :
    c.isDigit = true := by
  rw [Nat.toString_eq_repr, Nat.toList_repr] at found
  exact Nat.isDigit_of_mem_toDigits (by omega) (by omega) found

theorem isNumeral_toString (n : Nat) : isNumeral (toString n) = true := by
  rw [isNumeral, Bool.and_eq_true, List.all_eq_true]
  exact ⟨by simp, fun _ => isDigit_of_mem_toString⟩

@[simp] theorem value_toString (n : Nat) : value (toString n) = n := by
  rw [value, Nat.toString_eq_repr, Nat.toList_repr, Nat.ofDigitChars_ten_toDigits]

end Literal

end HackAssembler
