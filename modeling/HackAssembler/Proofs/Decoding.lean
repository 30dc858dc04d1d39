import HackAssembler.Instruction
import HackAssembler.Mnemonic
import Mathlib.Algebra.Group.Nat.Defs

/-!
# Words read back

The other direction of encoding: the number that a text of binary digits denotes, the bits of a
word as numbers, and the instruction that a word stands for. The fields of a compute word do not
overlap, so the word is the sum of its shifted fields (`Instruction.toNat_encode_compute`); from
this sum the fields come back by division, and an instruction whose fields are in range comes back
from its word.

Since the text of a word denotes the word, the same is said of texts: what the text of a computation
tells are its fields, each without the bits above its own ones, and nothing else
(`Instruction.text_tells_fields`).
-/

set_option autoImplicit false

namespace HackAssembler

namespace Word

/-- The number made of the `width` bits of a word from bit `low` on. -/
def bits (word : Word) (low width : Nat) : Word := UInt16.ofNat (word.toNat / 2 ^ low % 2 ^ width)

/-- The word that a text of binary digits denotes, the highest bit first. -/
def ofText (text : String) : Word := UInt16.ofNat (Nat.ofDigitChars 2 text.toList 0)

/-- Whether a word is an instruction of the machine: an address, or a computation with bits that
the table of computations holds. -/
def IsLegal (word : Word) : Prop :=
  word < 0x8000 ∨ word.bits 13 3 = 0b111 ∧ word.bits 6 7 ∈ Field.compTable.map Prod.snd

instance (word : Word) : Decidable word.IsLegal := inferInstanceAs (Decidable (_ ∨ _))

theorem toNat_bits (word : Word) (low : Nat) {width : Nat} (fits : width ≤ 16) :
    (word.bits low width).toNat = word.toNat / 2 ^ low % 2 ^ width := by
  have small : 2 ^ width ≤ 2 ^ 16 := Nat.pow_le_pow_right (by omega) fits
  have inside := Nat.mod_lt (word.toNat / 2 ^ low) (Nat.two_pow_pos width)
  rw [bits, UInt16.toNat_ofNat', Nat.mod_eq_of_lt (by omega)]

/-- The first digits of a word denote what is left of it without its lower bits. -/
theorem ofDigitChars_digits (word : Word) {count : Nat} (inside : count ≤ 16) :
    Nat.ofDigitChars 2
      ((List.range count).map fun i => if word.toBitVec.getMsbD i then '1' else '0') 0 =
      word.toNat / 2 ^ (16 - count) := by
  induction count with
  | zero =>
    have bound := word.toNat_lt
    simp only [List.range_zero, List.map_nil, Nat.ofDigitChars_nil]
    omega
  | succ count ih =>
    -- One more digit takes back one halving and adds the bit that this halving lost.
    have place : 16 - count = (16 - (count + 1)) + 1 := by omega
    have bit : word.toBitVec.getMsbD count =
        decide (word.toNat / 2 ^ (16 - (count + 1)) % 2 = 1) := by
      have index : 16 - 1 - count = 16 - (count + 1) := by omega
      rw [BitVec.getMsbD_eq_getLsbD, decide_eq_true (by omega), Bool.true_and, BitVec.getLsbD,
        Nat.testBit_eq_decide_div_mod_eq, UInt16.toNat_toBitVec, index]
    rw [List.range_succ, List.map_append, Nat.ofDigitChars_append, ih (by omega),
      List.map_singleton, Nat.ofDigitChars_cons, Nat.ofDigitChars_nil, bit, place, Nat.pow_succ,
      ← Nat.div_div_eq_div_mul]
    by_cases one : word.toNat / 2 ^ (16 - (count + 1)) % 2 = 1
    · simp only [one, decide_true, if_true, Char.reduceToNat]
      omega
    · simp only [one, decide_false, Bool.false_eq_true, if_false, Char.reduceToNat]
      omega

theorem length_text (word : Word) : word.text.toList.length = 16 := by
  rw [Word.text, String.toList_ofList, Text.length_binaryDigits]

theorem eq_of_mem_text {word : Word} {c : Char} (found : c ∈ word.text.toList) :
    c = '0' ∨ c = '1' := by
  rw [Word.text, String.toList_ofList, Text.binaryDigits] at found
  obtain ⟨i, -, rfl⟩ := List.mem_map.1 found
  split
  · exact Or.inr rfl
  · exact Or.inl rfl

/-- The text of a word, read as a binary numeral, denotes the word. -/
theorem ofDigitChars_text (word : Word) :
    Nat.ofDigitChars 2 word.text.toList 0 = word.toNat := by
  have read := word.ofDigitChars_digits (Nat.le_refl 16)
  rw [Word.text, String.toList_ofList, Text.binaryDigits, read, Nat.sub_self, Nat.pow_zero,
    Nat.div_one]

@[simp] theorem ofText_text (word : Word) : ofText word.text = word := by
  rw [ofText, ofDigitChars_text, UInt16.ofNat_toNat]

theorem text_injective : Function.Injective text := by
  intro word word' same
  rw [← ofText_text word, same, ofText_text]

theorem bits_eq_mark_iff (word : Word) : word.bits 13 3 = 0b111 ↔ 0xE000 ≤ word := by
  have bound := word.toNat_lt
  rw [← UInt16.toNat_inj, toNat_bits _ _ (by omega), UInt16.le_iff_toNat_le]
  show _ = 7 ↔ 57344 ≤ word.toNat
  omega

end Word

namespace Instruction

/-- The instruction that a word stands for: an address if the highest bit is not set, a computation
if the three highest bits are. -/
def decode? (word : Word) : Option Instruction :=
  if word.bits 15 1 = 0 then some (.address word)
  else if word.bits 13 3 = 0b111 then
    some (.compute (word.bits 3 3) (word.bits 6 7) (word.bits 0 3))
  else none

/-- Whether every field of an instruction is within its bits, and the computation is one that the
table holds. -/
def IsLegal : Instruction → Prop
  | address value => value < 0x8000
  | compute dest comp jump => dest < 8 ∧ comp ∈ Field.compTable.map Prod.snd ∧ jump < 8

/-- A field is masked and then moved to its place. -/
theorem toNat_mask_shiftLeft (word : Word) {mask distance : Word} (width place : Nat)
    (full : mask.toNat = 2 ^ width - 1) (moved : distance.toNat = place)
    (fits : width + place < 16) :
    ((word &&& mask) <<< distance).toNat = word.toNat % 2 ^ width * 2 ^ place := by
  have inside : word.toNat % 2 ^ width * 2 ^ place < 2 ^ 16 := by
    calc word.toNat % 2 ^ width * 2 ^ place < 2 ^ width * 2 ^ place :=
          Nat.mul_lt_mul_of_pos_right (Nat.mod_lt _ (Nat.two_pow_pos width)) (Nat.two_pow_pos place)
      _ = 2 ^ (width + place) := (Nat.pow_add ..).symm
      _ ≤ 2 ^ 16 := Nat.pow_le_pow_right (by omega) (by omega)
  rw [UInt16.toNat_shiftLeft, UInt16.toNat_and, full, moved, Nat.and_two_pow_sub_one_eq_mod,
    @Nat.mod_eq_of_lt place 16 (by omega), Nat.shiftLeft_eq, Nat.mod_eq_of_lt inside]

/-- Bits below the lowest one of a number are added to it. -/
theorem or_eq_add {high low : Nat} (place : Nat) (above : 2 ^ place ∣ high)
    (below : low < 2 ^ place) : high ||| low = high + low := by
  obtain ⟨number, rfl⟩ := above
  rw [Nat.two_pow_add_eq_or_of_lt below]

/-- The fields of a compute word lie side by side. -/
theorem toNat_encode_compute (dest comp jump : Word) :
    (compute dest comp jump).encode.toNat =
      57344 + comp.toNat % 128 * 64 + dest.toNat % 8 * 8 + jump.toNat % 8 := by
  have mark : ((0b111 : Word) <<< 13).toNat = 57344 := rfl
  have compPart : ((comp &&& 0b1111111) <<< 6).toNat = comp.toNat % 128 * 64 :=
    toNat_mask_shiftLeft comp 7 6 rfl rfl (by omega)
  have destPart : ((dest &&& 0b111) <<< 3).toNat = dest.toNat % 8 * 8 :=
    toNat_mask_shiftLeft dest 3 3 rfl rfl (by omega)
  have jumpPart : (jump &&& 0b111).toNat = jump.toNat % 8 :=
    (UInt16.toNat_and ..).trans (Nat.and_two_pow_sub_one_eq_mod _ 3)
  have compAdded : 57344 ||| comp.toNat % 128 * 64 = 57344 + comp.toNat % 128 * 64 :=
    or_eq_add 13 (by omega) (by omega)
  have destAdded : 57344 + comp.toNat % 128 * 64 ||| dest.toNat % 8 * 8 =
      57344 + comp.toNat % 128 * 64 + dest.toNat % 8 * 8 :=
    or_eq_add 6 (by omega) (by omega)
  rw [encode, UInt16.toNat_or, UInt16.toNat_or, UInt16.toNat_or, mark, compPart, destPart,
    jumpPart, compAdded, destAdded]
  exact or_eq_add 3 (by omega) (by omega)

/-- The highest bits of a compute word are set, and the other ones are those of its fields, each cut
to its own bits. -/
theorem bits_encode_compute_cut (dest comp jump : Word) :
    let word := (compute dest comp jump).encode
    word.bits 13 3 = 0b111 ∧ word.bits 6 7 = comp % 128 ∧ word.bits 3 3 = dest % 8 ∧
      word.bits 0 3 = jump % 8 := by
  intro word
  have sum : word.toNat = _ := toNat_encode_compute dest comp jump
  refine ⟨?_, ?_, ?_, ?_⟩ <;> apply UInt16.toNat_inj.1 <;>
    rw [Word.toNat_bits _ _ (by omega), sum]
  · show _ = 7
    omega
  · show _ = comp.toNat % 128
    omega
  · show _ = dest.toNat % 8
    omega
  · show _ = jump.toNat % 8
    omega

/-- The fields of a compute word come back, and its highest bits are set. -/
theorem bits_encode_compute {dest comp jump : Word} (destFits : dest < 8) (compFits : comp < 128)
    (jumpFits : jump < 8) :
    let word := (compute dest comp jump).encode
    word.bits 15 1 = 1 ∧ word.bits 13 3 = 0b111 ∧ word.bits 3 3 = dest ∧ word.bits 6 7 = comp ∧
      word.bits 0 3 = jump := by
  intro word
  obtain ⟨mark, compBits, destBits, jumpBits⟩ := bits_encode_compute_cut dest comp jump
  rw [UInt16.mod_eq_of_lt compFits] at compBits
  rw [UInt16.mod_eq_of_lt destFits] at destBits
  rw [UInt16.mod_eq_of_lt jumpFits] at jumpBits
  have sign : word.bits 15 1 = 1 := by
    have large : 57344 ≤ word.toNat :=
      UInt16.le_iff_toNat_le.1 ((Word.bits_eq_mark_iff word).1 mark)
    have bound := word.toNat_lt
    apply UInt16.toNat_inj.1
    rw [Word.toNat_bits _ _ (by omega)]
    show _ = 1
    omega
  exact ⟨sign, mark, destBits, compBits, jumpBits⟩

theorem lt_of_mem_compTable {comp : Word} (found : comp ∈ Field.compTable.map Prod.snd) :
    comp < 128 := by
  have all : ∀ entry ∈ Field.compTable, entry.2 < 128 := by decide
  obtain ⟨entry, member, rfl⟩ := List.mem_map.1 found
  exact all entry member

theorem bits_of_lt {word : Word} (small : word < 0x8000) : word.bits 15 1 = 0 := by
  have small : word.toNat < 32768 := UInt16.lt_iff_toNat_lt.1 small
  apply UInt16.toNat_inj.1
  rw [Word.toNat_bits _ _ (by omega)]
  show _ = 0
  omega

/-- Decoding undoes encoding. -/
theorem decode?_encode {instruction : Instruction} (legal : instruction.IsLegal) :
    decode? instruction.encode = some instruction := by
  cases instruction with
  | address value => rw [decode?, encode, if_pos (bits_of_lt legal)]
  | compute dest comp jump =>
    obtain ⟨sign, mark, destBits, compBits, jumpBits⟩ :=
      bits_encode_compute legal.1 (lt_of_mem_compTable legal.2.1) legal.2.2
    rw [decode?, sign, if_neg (by decide), if_pos mark, destBits, compBits, jumpBits]

theorem isLegal_encode {instruction : Instruction} (legal : instruction.IsLegal) :
    instruction.encode.IsLegal := by
  cases instruction with
  | address value => exact Or.inl legal
  | compute dest comp jump =>
    obtain ⟨-, mark, -, compBits, -⟩ :=
      bits_encode_compute legal.1 (lt_of_mem_compTable legal.2.1) legal.2.2
    exact Or.inr ⟨mark, by rw [compBits]; exact legal.2.1⟩

/-- Encoding undoes decoding of a computation. -/
theorem encode_compute_bits {word : Word} (mark : word.bits 13 3 = 0b111) :
    (compute (word.bits 3 3) (word.bits 6 7) (word.bits 0 3)).encode = word := by
  have mark : word.toNat / 2 ^ 13 % 2 ^ 3 = 7 := by
    rw [← Word.toNat_bits word 13 (by omega), mark]
    rfl
  have bound := word.toNat_lt
  apply UInt16.toNat_inj.1
  rw [toNat_encode_compute, Word.toNat_bits _ _ (by omega), Word.toNat_bits _ _ (by omega),
    Word.toNat_bits _ _ (by omega)]
  omega

/-! ## Texts -/

theorem text_eq_iff {instruction other : Instruction} :
    instruction.text = other.text ↔ instruction.encode = other.encode :=
  Word.text_injective.eq_iff

/-- Two computations have the same word if their fields are the same within their own bits. -/
theorem encode_compute_eq_iff {dest comp jump dest' comp' jump' : Word} :
    (compute dest comp jump).encode = (compute dest' comp' jump').encode ↔
      dest % 8 = dest' % 8 ∧ comp % 128 = comp' % 128 ∧ jump % 8 = jump' % 8 := by
  constructor
  · intro same
    obtain ⟨-, compBits, destBits, jumpBits⟩ := bits_encode_compute_cut dest comp jump
    obtain ⟨-, compBits', destBits', jumpBits'⟩ := bits_encode_compute_cut dest' comp' jump'
    rw [← destBits, ← compBits, ← jumpBits, same]
    exact ⟨destBits', compBits', jumpBits'⟩
  · rintro ⟨sameDest, sameComp, sameJump⟩
    have destCut : dest.toNat % 8 = dest'.toNat % 8 := congrArg UInt16.toNat sameDest
    have compCut : comp.toNat % 128 = comp'.toNat % 128 := congrArg UInt16.toNat sameComp
    have jumpCut : jump.toNat % 8 = jump'.toNat % 8 := congrArg UInt16.toNat sameJump
    apply UInt16.toNat_inj.1
    rw [toNat_encode_compute, toNat_encode_compute, destCut, compCut, jumpCut]

/-- The addresses that have the word of a computation, too. -/
theorem exists_encode_compute_iff {value : Word} :
    (∃ dest comp jump, value = (compute dest comp jump).encode) ↔ 0xE000 ≤ value := by
  rw [← Word.bits_eq_mark_iff]
  constructor
  · rintro ⟨dest, comp, jump, rfl⟩
    exact (bits_encode_compute_cut dest comp jump).1
  · intro mark
    exact ⟨_, _, _, (encode_compute_bits mark).symm⟩

/-- The text of an instruction consists of sixteen binary digits and denotes the word of the
instruction. The word of a computation is made of the mark, and of the fields cut to their own bits;
so these are what the texts of two computations tell apart. Only an address from `0xE000` on can
have the text of a computation, and each of them does. -/
theorem text_tells_fields :
    (∀ instruction : Instruction,
      instruction.text.toList.length = 16 ∧
        (∀ digit ∈ instruction.text.toList, digit = '0' ∨ digit = '1') ∧
        Nat.ofDigitChars 2 instruction.text.toList 0 = instruction.encode.toNat) ∧
    (∀ dest comp jump : Word,
      let word := (compute dest comp jump).encode
      word.bits 13 3 = 0b111 ∧ word.bits 6 7 = comp % 128 ∧ word.bits 3 3 = dest % 8 ∧
        word.bits 0 3 = jump % 8) ∧
    (∀ dest comp jump dest' comp' jump' : Word,
      (compute dest comp jump).text = (compute dest' comp' jump').text ↔
        dest % 8 = dest' % 8 ∧ comp % 128 = comp' % 128 ∧ jump % 8 = jump' % 8) ∧
    ∀ value : Word,
      (∃ dest comp jump, (address value).text = (compute dest comp jump).text) ↔
        0xE000 ≤ value := by
  refine ⟨fun instruction => ?_, bits_encode_compute_cut, fun _ _ _ _ _ _ => ?_, fun value => ?_⟩
  · exact ⟨Word.length_text _, fun _ => Word.eq_of_mem_text, Word.ofDigitChars_text _⟩
  · rw [text_eq_iff, encode_compute_eq_iff]
  · simp only [text_eq_iff]
    exact exists_encode_compute_iff

/-- Bits above those of the fields leave no trace, and the text is also that of an address. -/
theorem text_tells_fields_overfull :
    (compute 0xFFFF 0x80AA 0x0C08).text = (compute 7 0x2A 0).text ∧
      (compute 7 0x2A 0).text = "1110101010111000" ∧
      (address 0xEAB8).text = "1110101010111000" ∧ (0xE000 : Word) ≤ 0xEAB8 := by
  obtain ⟨-, -, same, shared⟩ := text_tells_fields
  have cut : (compute 0xFFFF 0x80AA 0x0C08).text = (compute 7 0x2A 0).text :=
    (same ..).2 (by decide)
  have computed : (compute 7 0x2A 0).text = "1110101010111000" := by decide +kernel
  have loaded : (address 0xEAB8).text = "1110101010111000" := by decide +kernel
  exact ⟨cut, computed, loaded, (shared 0xEAB8).1 ⟨7, 0x2A, 0, loaded.trans computed.symm⟩⟩

end Instruction

end HackAssembler
