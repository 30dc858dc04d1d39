import HackAssembler.Proofs.LineReading
import HackAssembler.Proofs.Lines
import HackAssembler.Proofs.Silence

/-!
# Labels as operands

In a program that strict mode accepts, a line `@name` loads the number of operations before the
declaration of the label `name`, wherever the two stand. There is one declaration of the name only,
so the number is the one that was bound, and it is small enough not to be cut. All this follows from
the program being silent in lenient mode.

There is one kind of label that no line can refer to. A name may consist of digits, and an operand
of digits is a numeral.
-/

set_option autoImplicit false

namespace HackAssembler

open Meaning

variable {source name : String} {number : Nat}

/-- No line says two things. -/
theorem eq_of_mem_strippedLines {text other : List Char}
    (here : ⟨number, text⟩ ∈ strippedLines source)
    (here' : ⟨number, other⟩ ∈ strippedLines source) : text = other := by
  obtain ⟨line, found, rfl, -⟩ := Statement.mem_saidFrom_iff.1 here
  obtain ⟨line', found', rfl, -⟩ := Statement.mem_saidFrom_iff.1 here'
  have same : line = line' := by
    rw [List.mem_zipIdx_iff_le_and_getElem?_sub] at found found'
    exact Option.some.inj (found.2.symm.trans found'.2)
  rw [same]

namespace Meaning

variable {tokens : List Token}

/-- What the listing of a source has for a line `@name`: exactly the entries of that line. -/
theorem standsFor_of_mem_strippedLines
    (refers : ⟨number, '@' :: name.toList⟩ ∈ strippedLines source) :
    (∃ entry ∈ (listing (Token.ofSource source)).entries, entry.line = number) ∧
      ∀ entry ∈ (listing (Token.ofSource source)).entries, entry.line = number →
        ∃ word, entry.instruction = .address word ∧
          StandsFor (Token.ofSource source) (listing (Token.ofSource source)) word name := by
  generalize program : Token.ofSource source = tokens
  constructor
  · have token : ⟨number, .operation (.address name)⟩ ∈ tokens := by
      rw [← program]
      exact Token.mem_ofSource_iff.2 ⟨_, refers, Statement.ofStripped?_of_loads rfl⟩
    have command : (⟨number, .address name⟩ : Command) ∈ commands tokens :=
      mem_commands_iff.2 token
    rw [← List.zipIdx_map_fst 0 (commands tokens)] at command
    obtain ⟨placed, found, here⟩ := List.mem_map.1 command
    exact ⟨_, List.mem_map_of_mem found, congrArg Located.line here⟩
  · rintro _ found rfl
    obtain ⟨⟨⟨line, op⟩, place⟩, placed, rfl⟩ := List.mem_map.1 found
    have token : ⟨line, .operation op⟩ ∈ Token.ofSource source := by
      rw [program]
      exact mem_commands_iff.1 (List.fst_mem_of_mem_zipIdx placed)
    obtain ⟨text, stated, read⟩ := Token.mem_ofSource_iff.1 token
    -- A line says one thing only, so this is the operation of the line `@name`.
    obtain rfl := eq_of_mem_strippedLines refers stated
    rw [Statement.ofStripped?_of_loads rfl, Option.some.injEq, Statement.operation.injEq] at read
    subst read
    exact ⟨_, rfl, _, line, encodes_of_mem_zipIdx placed, rfl⟩

/-- The listing of a program without a fault is faithful. -/
theorem isFaithful_of_sound (sound : fault? tokens = none) : IsFaithful tokens (listing tokens) :=
  isFaithful_listing fun _ said => not_warn_of_mem_notices sound said

end Meaning

/-- Every label that strict mode accepts can be used, unless its name is a numeral: a line `@name`
becomes the number of operations before the declaration of `name`. A numeral stands for its value
instead, whatever is declared. -/
theorem word_of_label {listing : Listing}
    (accepted : (assemble .strict source).outcome = .ok listing) {place : Nat}
    (declared : (name, place) ∈ declarations (Token.ofSource source))
    (refers : ⟨number, '@' :: name.toList⟩ ∈ strippedLines source) :
    (∃ entry ∈ listing.entries, entry.line = number) ∧
      ∀ entry ∈ listing.entries, entry.line = number →
        entry.instruction.encode.toNat =
          if Literal.isNumeral name then Literal.value name else place := by
  have sound := sound_of_outcome_strict accepted
  obtain rfl : Meaning.listing (Token.ofSource source) = listing := by
    simpa [assemble_of_sound sound] using accepted
  have faithful := isFaithful_of_sound sound
  obtain ⟨here, only⟩ := standsFor_of_mem_strippedLines refers
  refine ⟨here, fun entry found line => ?_⟩
  obtain ⟨word, loads, stands⟩ := only entry found line
  rw [loads, Instruction.encode]
  split
  · rename_i numeral
    exact faithful.numeral word name stands numeral
  · rename_i symbol
    exact faithful.label word name place stands (Bool.eq_false_iff.2 symbol) declared

/-- One label is used before its declaration and one behind it. -/
theorem word_of_label_forward_and_back :
    (("END", 3) ∈ declarations (Token.ofSource "@END\n(LOOP)\n0;JMP\n  @LOOP // again\n(END)") ∧
      ("LOOP", 1) ∈ declarations (Token.ofSource "@END\n(LOOP)\n0;JMP\n  @LOOP // again\n(END)")) ∧
    ∃ listing,
      (assemble .strict "@END\n(LOOP)\n0;JMP\n  @LOOP // again\n(END)").outcome = .ok listing ∧
      (∀ entry ∈ listing.entries, entry.line = 1 → entry.instruction.encode.toNat = 3) ∧
      ∀ entry ∈ listing.entries, entry.line = 4 → entry.instruction.encode.toNat = 1 := by
  have accepted : (assemble .strict "@END\n(LOOP)\n0;JMP\n  @LOOP // again\n(END)").outcome =
      .ok ⟨[⟨0, 1, "@END", .address 3⟩, ⟨1, 3, "0;JMP", .compute 0 0b0101010 0b111⟩,
        ⟨2, 4, "@LOOP", .address 1⟩]⟩ := by
    decide +kernel
  have behind : ("END", 3) ∈
      declarations (Token.ofSource "@END\n(LOOP)\n0;JMP\n  @LOOP // again\n(END)") := by
    decide +kernel
  have before : ("LOOP", 1) ∈
      declarations (Token.ofSource "@END\n(LOOP)\n0;JMP\n  @LOOP // again\n(END)") := by
    decide +kernel
  have forward : ⟨1, '@' :: "END".toList⟩ ∈
      strippedLines "@END\n(LOOP)\n0;JMP\n  @LOOP // again\n(END)" := by
    decide +kernel
  have back : ⟨4, '@' :: "LOOP".toList⟩ ∈
      strippedLines "@END\n(LOOP)\n0;JMP\n  @LOOP // again\n(END)" := by
    decide +kernel
  exact ⟨⟨behind, before⟩, _, accepted, (word_of_label accepted behind forward).2,
    (word_of_label accepted before back).2⟩

/-- Strict mode accepts a label `5` before all operations, and yet a line `@5` becomes the number
five. -/
theorem numeral_label_not_referred_to :
    (assemble .strict "(5)\n@5").outcome = .ok ⟨[⟨0, 2, "@5", .address 5⟩]⟩ ∧
      ("5", 0) ∈ declarations (Token.ofSource "(5)\n@5") ∧
      ⟨2, '@' :: "5".toList⟩ ∈ strippedLines "(5)\n@5" ∧
      (Instruction.address 5).encode.toNat ≠ 0 :=
  ⟨by decide +kernel, by decide +kernel, by decide +kernel, by decide⟩

end HackAssembler
