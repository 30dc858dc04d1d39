import HackAssembler.Proofs.Numeral
import Mathlib.Data.List.Basic
import Mathlib.Logic.ExistsUnique

/-!
# Which texts are literals, and what they denote

A text of decimal digits denotes a number: it is the numeral that is written for the number, behind
any zeros. Exactly such texts are literals, and a literal holds the number that it denotes, cut to
sixteen bits, and the mark that the number is too large for an address (`literal_of_text`). How long
the numeral is makes no difference. A mark that is set on the way is kept to the end, even when the
low bits come back into the range of the addresses.
-/

set_option autoImplicit false

namespace HackAssembler.Literal

/-- The text is the numeral of a number, with any zeros in front. -/
def Denotes (text : String) (n : Nat) : Prop :=
  ∃ zeros, text.toList = List.replicate zeros '0' ++ (toString n).toList

variable {text : String} {digit : Char} {digits : List Char} {n : Nat}

/-! ## Digits -/

theorem isNumeral_iff :
    isNumeral text = true ↔
      text ≠ "" ∧ ∀ c ∈ text.toList, '0'.toNat ≤ c.toNat ∧ c.toNat ≤ '9'.toNat := by
  simp only [isNumeral, Bool.and_eq_true, Bool.not_eq_true', List.isEmpty_eq_false_iff, ne_eq,
    String.toList_eq_nil_iff, List.all_eq_true, Char.isDigit_iff_toNat]

/-- A digit stands for a number below ten. -/
theorem lt_ten_of_isDigit (isDigit : digit.isDigit = true) : digit.toNat - '0'.toNat < 10 := by
  have above := (Char.isDigit_iff_toNat.1 isDigit).2
  have span : '9'.toNat = '0'.toNat + 9 := rfl
  omega

theorem toDigits_of_isDigit (isDigit : digit.isDigit = true) :
    Nat.toDigits 10 (digit.toNat - '0'.toNat) = [digit] := by
  have below := (Char.isDigit_iff_toNat.1 isDigit).1
  have zero : '0'.toNat = 48 := rfl
  rw [Nat.toDigits_of_lt_base (lt_ten_of_isDigit isDigit), List.cons.injEq, ← Char.toNat_inj,
    Nat.toNat_digitChar_of_lt_ten (lt_ten_of_isDigit isDigit)]
  exact ⟨by omega, rfl⟩

/-- Digits behind the numeral of a positive number make up the numeral of what is read then. -/
theorem toDigits_ofDigitChars (all : ∀ c ∈ digits, c.isDigit = true) (positive : 0 < n) :
    Nat.toDigits 10 (Nat.ofDigitChars 10 digits n) = Nat.toDigits 10 n ++ digits := by
  induction digits generalizing n with
  | nil => rw [Nat.ofDigitChars_nil, List.append_nil]
  | cons digit rest ih =>
    obtain ⟨isDigit, others⟩ := List.forall_mem_cons.1 all
    have longer : Nat.toDigits 10 n ++ [digit] =
        Nat.toDigits 10 (10 * n + (digit.toNat - '0'.toNat)) := by
      rw [← toDigits_of_isDigit isDigit]
      exact Nat.toDigits_append_toDigits (by omega) positive (lt_ten_of_isDigit isDigit)
    rw [Nat.ofDigitChars_cons, ih others (by omega), ← longer, List.append_assoc,
      List.singleton_append]

/-- Digits are the numeral of what is read from them, behind the zeros that they start with. -/
theorem exists_zeros (filled : digits ≠ []) (all : ∀ c ∈ digits, c.isDigit = true) :
    ∃ zeros, digits =
      List.replicate zeros '0' ++ Nat.toDigits 10 (Nat.ofDigitChars 10 digits 0) := by
  induction digits with
  | nil => contradiction
  | cons digit rest ih =>
    obtain ⟨isDigit, others⟩ := List.forall_mem_cons.1 all
    by_cases leading : digit = '0'
    · subst leading
      cases rest with
      | nil => exact ⟨0, rfl⟩
      | cons next more =>
        obtain ⟨zeros, split⟩ := ih (by simp) others
        refine ⟨zeros + 1, ?_⟩
        rw [Nat.ofDigitChars_cons, List.replicate_succ, List.cons_append]
        exact congrArg (List.cons '0') split
    · have positive : 0 < digit.toNat - '0'.toNat := by
        have below := (Char.isDigit_iff_toNat.1 isDigit).1
        have other : digit.toNat ≠ '0'.toNat := fun same => leading (Char.toNat_inj.1 same)
        omega
      refine ⟨0, ?_⟩
      rw [Nat.ofDigitChars_cons, Nat.mul_zero, Nat.zero_add, toDigits_ofDigitChars others positive,
        toDigits_of_isDigit isDigit]
      rfl

/-- A mark once set is kept, whatever digits follow. -/
theorem outOfRange_foldl_shiftIn (digits : List Char) {sofar : Literal}
    (marked : sofar.outOfRange = true) : (digits.foldl shiftIn sofar).outOfRange = true := by
  induction digits generalizing sofar with
  | nil => exact marked
  | cons digit rest ih =>
    apply ih
    rw [shiftIn, marked, Bool.true_or]

/-! ## Numerals -/

theorem Denotes.value_eq (denotes : Denotes text n) : value text = n := by
  obtain ⟨zeros, split⟩ := denotes
  rw [value, split, Nat.toString_eq_repr, Nat.toList_repr, Nat.ofDigitChars_append,
    Nat.ofDigitChars_replicate_zero, Nat.mul_zero, Nat.ofDigitChars_ten_toDigits]

theorem denotes_value (numeral : isNumeral text = true) : Denotes text (value text) := by
  obtain ⟨filled, all⟩ := isNumeral_iff.1 numeral
  obtain ⟨zeros, split⟩ := exists_zeros (fun empty => filled (String.toList_eq_nil_iff.1 empty))
    fun c found => Char.isDigit_iff_toNat.2 (all c found)
  exact ⟨zeros, by rw [Nat.toString_eq_repr, Nat.toList_repr, value, ← split]⟩

/-- In memory a numeral takes one byte for each digit. -/
theorem toUTF8_of_isNumeral (numeral : isNumeral text = true) :
    text.toUTF8.data.toList = text.toList.map fun c => UInt8.ofNat c.toNat := by
  have one (c : Char) (found : c ∈ text.toList) :
      String.utf8EncodeChar c = [UInt8.ofNat c.toNat] := by
    have above := ((isNumeral_iff.1 numeral).2 c found).2
    have small : c.toNat ≤ 127 := Nat.le_trans above (by decide)
    exact if_pos small
  rw [String.toUTF8_eq_toByteArray, ← String.utf8Encode_toList, List.utf8Encode,
    List.toList_data_toByteArray, List.flatMap_congr one, List.map_eq_flatMap]

/-- Exactly the texts of decimal digits are literals. A literal holds the one number that its text
denotes, cut to sixteen bits and marked if it is too large for an address. On the way no byte of the
text is below the digit zero, and a mark that is set behind some of the digits is never taken
back. -/
theorem literal_of_text (text : String) :
    ((ofText? text).isSome ↔
      text ≠ "" ∧ ∀ c ∈ text.toList, '0'.toNat ≤ c.toNat ∧ c.toNat ≤ '9'.toNat) ∧
    ∀ literal, ofText? text = some literal →
      (∃! n, Denotes text n) ∧
      (∀ n, Denotes text n →
        literal.low.toNat = n % 65536 ∧ literal.outOfRange = decide (32767 < n)) ∧
      (∀ byte ∈ text.toUTF8.data.toList, '0'.toNat ≤ byte.toNat ∧ byte.toNat ≤ '9'.toNat) ∧
      ∀ front back, text.toList = front ++ back →
        (front.foldl shiftIn ⟨0, false⟩).outOfRange = true → literal.outOfRange = true := by
  cases numeral : isNumeral text with
  | false =>
    rw [ofText?_eq_none numeral, ← isNumeral_iff, numeral]
    exact ⟨by simp, fun literal read => by contradiction⟩
  | true =>
    rw [← isNumeral_iff, numeral, ofText?_eq_some numeral]
    refine ⟨by simp, ?_⟩
    rintro literal read
    obtain rfl := Option.some.inj read
    refine ⟨⟨value text, denotes_value numeral, fun n denotes => denotes.value_eq.symm⟩, ?_, ?_, ?_⟩
    · rintro n denotes
      rw [denotes.value_eq, toNat_maxAddress]
      exact ⟨UInt16.toNat_ofNat', rfl⟩
    · rw [toUTF8_of_isNumeral numeral]
      intro byte found
      obtain ⟨c, digit, rfl⟩ := List.mem_map.1 found
      have bounds := (isNumeral_iff.1 numeral).2 c digit
      have nine : '9'.toNat = 57 := rfl
      rwa [UInt8.toNat_ofNat', Nat.mod_eq_of_lt (by omega)]
    · intro front back split marked
      have kept := outOfRange_foldl_shiftIn back marked
      rw [← List.foldl_append, ← split, foldl_shiftIn] at kept
      have large : UInt16.size ≤ value text := of_decide_eq_true kept
      have size : UInt16.size = 65536 := rfl
      apply decide_eq_true
      rw [toNat_maxAddress]
      omega

/-- The mark is set by the last digit but one, and the low bits come back below the end of the
addresses. -/
theorem literal_of_text_wrapped :
    ∃ literal, ofText? "00655380" = some literal ∧ Denotes "00655380" 655380 ∧
      literal.low.toNat = 655380 % 65536 ∧
      "0065538".toList.foldl shiftIn ⟨0, false⟩ = ⟨2, true⟩ ∧ literal.outOfRange = true ∧
      ∀ byte ∈ "00655380".toUTF8.data.toList, '0'.toNat ≤ byte.toNat ∧ byte.toNat ≤ '9'.toNat := by
  have read : ofText? "00655380" = some ⟨20, true⟩ := by decide +kernel
  have denotes : Denotes "00655380" 655380 := ⟨2, by decide +kernel⟩
  have before : "0065538".toList.foldl shiftIn ⟨0, false⟩ = ⟨2, true⟩ := by decide +kernel
  obtain ⟨-, stands, bytes, kept⟩ := (literal_of_text "00655380").2 _ read
  exact ⟨_, read, denotes, (stands _ denotes).1, before,
    kept "0065538".toList ['0'] (by decide +kernel) (by rw [before]), bytes⟩

end HackAssembler.Literal
