import HackAssembler.Proofs.Grammar
import Mathlib.Algebra.Group.Int.Defs

/-!
# Computations on the machine

How the machine runs a compute word, and what a computation says that it does. The machine reads the
bits of the word one by one: seven of them prepare the inputs of the ALU and choose what becomes of
them, three say where the output goes and three on which outputs to jump. A computation is read as
an expression over the registers, as the letters of the registers that take its value, and as a
condition on the sign of the value. What the tables make of a computation is run as it reads.
-/

set_option autoImplicit false

namespace HackAssembler

namespace Word

/-- A bit of a word, counted from the lowest one. -/
def bit (word : Word) (place : Nat) : Bool := word.toNat.testBit place

/-- A word as a signed number. -/
def signed (word : Word) : Int := word.toInt16.toInt

theorem bit_bits (word : Word) (low : Nat) {width place : Nat} (fits : width ≤ 16)
    (inside : place < width) : (word.bits low width).bit place = word.bit (low + place) := by
  rw [bit, toNat_bits word low fits, Nat.testBit_mod_two_pow, Nat.testBit_div_two_pow, bit,
    decide_eq_true inside, Bool.true_and, Nat.add_comm]

end Word

/-! ## The machine -/

namespace Machine

/-- What a computation reads and may store to: the registers A and D, and the memory cell M that A
points to when the computation starts. -/
structure Registers where
  a : Word
  d : Word
  m : Word
  deriving Repr, DecidableEq

/-- An input of the ALU, which is replaced by zero if `zero` is set, and then inverted bit by bit if
`invert` is. -/
def prepare (zero invert : Bool) (input : Word) : Word :=
  let input := if zero then 0 else input
  if invert then ~~~input else input

/-- The ALU: its two inputs are prepared, added or else combined bit by bit, and the result is
inverted if `no` is set. -/
def alu (zx nx zy ny f no : Bool) (x y : Word) : Word :=
  let x := prepare zx nx x
  let y := prepare zy ny y
  let result := if f then x + y else x &&& y
  if no then ~~~result else result

/-- The second input of the ALU. -/
def Registers.second (registers : Registers) (memory : Bool) : Word :=
  if memory then registers.m else registers.a

/-- The output of the ALU for a compute word. -/
def output (word : Word) (registers : Registers) : Word :=
  alu (word.bit 11) (word.bit 10) (word.bit 9) (word.bit 8) (word.bit 7) (word.bit 6) registers.d
    (registers.second (word.bit 12))

/-- The registers behind a compute word. -/
def store (word : Word) (registers : Registers) : Registers where
  a := if word.bit 5 then output word registers else registers.a
  d := if word.bit 4 then output word registers else registers.d
  m := if word.bit 3 then output word registers else registers.m

/-- Whether the machine jumps on an output. -/
def JumpsOn (word output : Word) : Prop :=
  word.bit 2 ∧ output.signed < 0 ∨ word.bit 1 ∧ output.signed = 0 ∨ word.bit 0 ∧ 0 < output.signed

end Machine

/-! ## Expressions -/

open Machine

/-- What a character of an expression stands for. -/
inductive Term where
  | zero
  | one
  | a
  | d
  | m
  deriving Repr, DecidableEq

namespace Term

def ofChar? : Char → Option Term
  | '0' => some zero
  | '1' => some one
  | 'A' => some a
  | 'D' => some d
  | 'M' => some m
  | _ => none

def value (registers : Registers) : Term → Word
  | zero => 0
  | one => 1
  | a => registers.a
  | d => registers.d
  | m => registers.m

end Term

/-- What a computation computes. -/
inductive Expression where
  | term (term : Term)
  | negative (term : Term)
  | complement (term : Term)
  | sum (left right : Term)
  | difference (left right : Term)
  | both (left right : Term)
  | either (left right : Term)
  deriving Repr, DecidableEq

namespace Expression

/-- Reads an expression, which has a sign in front of its only term or between its two terms. -/
def ofChars? : List Char → Option Expression
  | [c] => (Term.ofChar? c).map term
  | ['-', c] => (Term.ofChar? c).map negative
  | ['!', c] => (Term.ofChar? c).map complement
  | [c, '+', c'] => do return sum (← Term.ofChar? c) (← Term.ofChar? c')
  | [c, '-', c'] => do return difference (← Term.ofChar? c) (← Term.ofChar? c')
  | [c, '&', c'] => do return both (← Term.ofChar? c) (← Term.ofChar? c')
  | [c, '|', c'] => do return either (← Term.ofChar? c) (← Term.ofChar? c')
  | _ => none

def ofText? (text : String) : Option Expression := ofChars? text.toList

/-- The value of an expression: sums and differences are those of the integers, and logic is bit by
bit. -/
def value (registers : Registers) : Expression → Int
  | term t => (t.value registers).toNat
  | negative t => - (t.value registers).toNat
  | complement t => (~~~ t.value registers).toNat
  | sum left right => (left.value registers).toNat + (right.value registers).toNat
  | difference left right => (left.value registers).toNat - (right.value registers).toNat
  | both left right => (left.value registers &&& right.value registers).toNat
  | either left right => (left.value registers ||| right.value registers).toNat

theorem and_not_zero (x : Word) : x &&& ~~~0 = x := by simp

theorem not_zero_and (x : Word) : ~~~0 &&& x = x := by simp

theorem not_and_not (x y : Word) : ~~~(~~~x &&& ~~~y) = x ||| y :=
  UInt16.toBitVec_inj.1 (by simp [BitVec.not_and])

theorem toNat_emod (word : Word) : (word.toNat : Int) % 65536 = word.toNat := by
  have inside := word.toNat_lt
  omega

/-- The ALU computes what a mnemonic says. -/
theorem toNat_alu_of_mem_compTable : ∀ entry ∈ Field.compTable, ∃ expression,
    ofText? entry.1 = some expression ∧ ∀ registers : Registers,
      ((alu (entry.2.bit 5) (entry.2.bit 4) (entry.2.bit 3) (entry.2.bit 2) (entry.2.bit 1)
          (entry.2.bit 0) registers.d (registers.second (entry.2.bit 6))).toNat : Int) =
        expression.value registers % 2 ^ 16 := by
  simp only [Field.compTable, List.forall_mem_cons, List.not_mem_nil, false_implies, implies_true,
    and_true]
  refine ⟨⟨term .zero, rfl, fun registers => ?_⟩, ⟨term .one, rfl, fun registers => ?_⟩,
    ⟨negative .one, rfl, fun registers => ?_⟩, ⟨term .d, rfl, fun registers => ?_⟩,
    ⟨term .a, rfl, fun registers => ?_⟩, ⟨complement .d, rfl, fun registers => ?_⟩,
    ⟨complement .a, rfl, fun registers => ?_⟩, ⟨negative .d, rfl, fun registers => ?_⟩,
    ⟨negative .a, rfl, fun registers => ?_⟩, ⟨sum .d .one, rfl, fun registers => ?_⟩,
    ⟨sum .a .one, rfl, fun registers => ?_⟩, ⟨difference .d .one, rfl, fun registers => ?_⟩,
    ⟨difference .a .one, rfl, fun registers => ?_⟩, ⟨sum .d .a, rfl, fun registers => ?_⟩,
    ⟨difference .d .a, rfl, fun registers => ?_⟩, ⟨difference .a .d, rfl, fun registers => ?_⟩,
    ⟨both .d .a, rfl, fun registers => ?_⟩, ⟨either .d .a, rfl, fun registers => ?_⟩,
    ⟨term .m, rfl, fun registers => ?_⟩, ⟨complement .m, rfl, fun registers => ?_⟩,
    ⟨negative .m, rfl, fun registers => ?_⟩, ⟨sum .m .one, rfl, fun registers => ?_⟩,
    ⟨difference .m .one, rfl, fun registers => ?_⟩, ⟨sum .d .m, rfl, fun registers => ?_⟩,
    ⟨difference .d .m, rfl, fun registers => ?_⟩, ⟨difference .m .d, rfl, fun registers => ?_⟩,
    ⟨both .d .m, rfl, fun registers => ?_⟩, ⟨either .d .m, rfl, fun registers => ?_⟩⟩
  -- The bits of the entry say what becomes of the inputs. The logic is left to the words; sums and
  -- differences are linear, as inversion is.
  all_goals
    have a := registers.a.toNat_lt
    have d := registers.d.toNat_lt
    have m := registers.m.toNat_lt
    simp only [Word.bit, UInt16.reduceToNat, Nat.testBit_eq_decide_div_mod_eq, Nat.reducePow,
      Nat.reduceDiv, Nat.reduceMod, zero_ne_one, decide_true, decide_false, Bool.false_eq_true,
      ↓reduceIte, alu, prepare, Registers.second]
    simp only [value, Term.value, and_not_zero, not_zero_and, not_and_not, UInt16.toNat_add,
      UInt16.toNat_not, UInt16.size, Nat.reduceSub, UInt16.toNat_zero, UInt16.toNat_one,
      Int.reducePow, toNat_emod] <;>
      omega

end Expression

/-! ## Destinations and conditions -/

/-- The letters of a destination are the registers that its bits store to. -/
theorem mem_dest_iff_bit : ∀ entry ∈ Field.destTable,
    ('A' ∈ entry.1.toList ↔ entry.2.bit 2) ∧ ('D' ∈ entry.1.toList ↔ entry.2.bit 1) ∧
      ('M' ∈ entry.1.toList ↔ entry.2.bit 0) := by
  decide

/-- Whether the condition of a jump holds of a value. -/
def ConditionHolds (mnemonic : String) (value : Int) : Prop :=
  match mnemonic with
  | "JGT" => 0 < value
  | "JEQ" => value = 0
  | "JGE" => 0 ≤ value
  | "JLT" => value < 0
  | "JNE" => value ≠ 0
  | "JLE" => value ≤ 0
  | "JMP" => True
  | _ => False

/-- The bits of a jump are set for the signs of the values that its condition holds of. -/
theorem conditionHolds_iff_bit : ∀ entry ∈ Field.jumpTable, ∀ value : Int,
    (entry.2.bit 2 ∧ value < 0 ∨ entry.2.bit 1 ∧ value = 0 ∨ entry.2.bit 0 ∧ 0 < value) ↔
      ConditionHolds entry.1 value := by
  simp only [Field.jumpTable, List.forall_mem_cons, List.not_mem_nil, false_implies, implies_true,
    and_true]
  refine ⟨?_, ?_, ?_, ?_, ?_, ?_, ?_, ?_⟩
  all_goals
    intro value
    simp [Word.bit, Nat.testBit_eq_decide_div_mod_eq, ConditionHolds] <;> omega

/-! ## Computations -/

namespace Computation

/-- The machine runs the word as the computation reads: the output is the value of the expression
modulo 2^16, it goes to the registers whose letters the destination has, and the machine jumps if
the condition holds of it. -/
structure IsRunBy (computation : Computation) (word : Word) (registers : Registers) : Prop where
  computes : word.bits 13 3 = 0b111
  value : ∃ expression, Expression.ofText? computation.comp = some expression ∧
    ((output word registers).toNat : Int) = expression.value registers % 2 ^ 16
  store : store word registers =
    let letters := (computation.dest?.getD "null").toList
    { a := if 'A' ∈ letters then output word registers else registers.a
      d := if 'D' ∈ letters then output word registers else registers.d
      m := if 'M' ∈ letters then output word registers else registers.m }
  jump : JumpsOn word (output word registers) ↔
    ConditionHolds (computation.jump?.getD "null") (output word registers).signed

/-- The machine runs the word of a listed computation as the computation reads. -/
theorem IsListed.isRunBy {computation : Computation} (listed : computation.IsListed)
    (registers : Registers) :
    computation.IsRunBy (Meaning.computation computation.text).encode registers := by
  have legal := Meaning.isLegal_computation (known_iff.2 ⟨computation, listed, rfl⟩)
  obtain ⟨dest, comp, jump, same, destBits, compBits, jumpBits⟩ := listed.bits?
  rw [Field.bits?_eq_some_iff] at destBits compBits jumpBits
  rw [same] at legal ⊢
  obtain ⟨-, mark, destField, compField, jumpField⟩ :=
    Instruction.bits_encode_compute legal.1 (Instruction.lt_of_mem_compTable legal.2.1) legal.2.2
  generalize (Instruction.compute dest comp jump).encode = word at *
  -- The machine reads the bits of the fields where they lie in the word.
  have destBit (place : Nat) (inside : place < 3) : word.bit (3 + place) = dest.bit place := by
    rw [← destField, word.bit_bits 3 (by omega) inside]
  have compBit (place : Nat) (inside : place < 7) : word.bit (6 + place) = comp.bit place := by
    rw [← compField, word.bit_bits 6 (by omega) inside]
  have jumpBit (place : Nat) (inside : place < 3) : word.bit place = jump.bit place := by
    rw [← jumpField, word.bit_bits 0 (by omega) inside, Nat.zero_add]
  obtain ⟨expression, read, computed⟩ := Expression.toNat_alu_of_mem_compTable _ compBits
  obtain ⟨letterA, letterD, letterM⟩ := mem_dest_iff_bit _ destBits
  refine ⟨mark, ⟨expression, read, ?_⟩, ?_, ?_⟩
  · rw [← computed registers, output, ← compBit 6 (by omega), ← compBit 5 (by omega),
      ← compBit 4 (by omega), ← compBit 3 (by omega), ← compBit 2 (by omega),
      ← compBit 1 (by omega), ← compBit 0 (by omega)]
  · have stored (place : Nat) (inside : place < 3) (letter : Char)
        (told : letter ∈ computation.mnemonics.dest.toList ↔ dest.bit place) :
        word.bit (3 + place) = decide (letter ∈ (computation.dest?.getD "null").toList) := by
      rw [destBit place inside, Bool.eq_iff_iff, decide_eq_true_iff]
      exact told.symm
    simp only [Machine.store, stored 2 (by omega) 'A' letterA, stored 1 (by omega) 'D' letterD,
      stored 0 (by omega) 'M' letterM, decide_eq_true_iff]
  · rw [JumpsOn, jumpBit 2 (by omega), jumpBit 1 (by omega), jumpBit 0 (by omega)]
    exact conditionHolds_iff_bit _ jumpBits _

end Computation

/-- Whatever strict mode takes as a computation, the machine runs its word as it reads, whatever the
registers hold. -/
theorem run_of_accepted {line : Nat} {text : String} {instruction : Instruction}
    (accepted : Computation.encodeStrict line text = .ok instruction) :
    ∃ computation : Computation, computation.IsListed ∧ computation.text = text ∧
      ∀ registers, computation.IsRunBy instruction.encode registers := by
  obtain ⟨known, rfl⟩ := Computation.encodeStrict_eq_ok_iff.1 accepted
  obtain ⟨computation, listed, rfl⟩ := Computation.known_iff.1 known
  exact ⟨computation, listed, rfl, listed.isRunBy⟩

/-- A difference below zero, which is stored twice and jumped on. -/
theorem run_of_accepted_below_zero :
    Computation.encodeStrict 1 "AM=M-D;JLT" = .ok (.compute 0b101 0b1000111 0b100) ∧
      (∃ computation : Computation, computation.IsListed ∧ computation.text = "AM=M-D;JLT" ∧
        computation.IsRunBy 0xF1EC ⟨7, 1, 0⟩) ∧
      store 0xF1EC ⟨7, 1, 0⟩ = ⟨0xFFFF, 1, 0xFFFF⟩ := by
  have accepted : Computation.encodeStrict 1 "AM=M-D;JLT" =
      .ok (.compute 0b101 0b1000111 0b100) := by
    decide +kernel
  obtain ⟨computation, listed, written, run⟩ := run_of_accepted accepted
  exact ⟨accepted, ⟨computation, listed, written, run ⟨7, 1, 0⟩⟩, by decide +kernel⟩

end HackAssembler
