import HackAssembler.Proofs.Range
import HackAssembler.Proofs.Reading

/-!
# Words written as programs

Every legal word can be written as an operation: an address as its decimal numeral, a computation
with the mnemonics of its bits. Whatever else a program holds, such an operation is read back, has
no fault and is encoded as the word that it was written for. So the words of the programs that
strict mode accepts are exactly the legal ones.
-/

set_option autoImplicit false

namespace HackAssembler

open Meaning

/-! ## Mnemonics -/

namespace Mnemonics

/-- How the mnemonics of a computation are written. -/
def text (mnemonics : Mnemonics) : String :=
  mnemonics.dest ++ "=" ++ mnemonics.comp ++ ";" ++ mnemonics.jump

theorem toList_text (mnemonics : Mnemonics) :
    mnemonics.text.toList =
      mnemonics.dest.toList ++ '=' :: (mnemonics.comp.toList ++ ';' :: mnemonics.jump.toList) := by
  simp [text]

theorem ofText_text {mnemonics : Mnemonics} (dest : '=' ∉ mnemonics.dest.toList)
    (comp : ';' ∉ mnemonics.comp.toList) : ofText mnemonics.text = mnemonics := by
  rw [ofText, toList_text, Text.splitAtFirst_eq_some_iff.2 ⟨rfl, dest⟩]
  simp only [Text.splitAtFirst_eq_some_iff.2 ⟨rfl, comp⟩, String.ofList_toList]

end Mnemonics

namespace Field

/-- A mnemonic that stands for some bits, if the field has one. -/
def mnemonic (field : Field) (bits : Word) : String :=
  ((field.table.find? fun entry => entry.2 == bits).map Prod.fst).getD ""

theorem bits?_mnemonic {field : Field} {bits : Word} (found : bits ∈ field.table.map Prod.snd) :
    field.bits? (field.mnemonic bits) = some bits := by
  have all : ∀ entry ∈ field.table, field.bits? (field.mnemonic entry.2) = some entry.2 := by
    cases field <;> decide
  obtain ⟨entry, member, rfl⟩ := List.mem_map.1 found
  exact all entry member

/-- Mnemonics are written without separators and signs. -/
theorem of_mem_mnemonic {field : Field} {bits : Word} {c : Char}
    (found : c ∈ (field.mnemonic bits).toList) :
    Text.isInk c = true ∧ c ≠ '=' ∧ c ≠ ';' ∧ c ≠ '@' := by
  have all : ∀ entry ∈ field.table, entry.1.toList.all fun c =>
      Text.isInk c && c != '=' && c != ';' && c != '@' := by
    cases field <;> decide
  unfold mnemonic at found
  cases stands : field.table.find? fun entry => entry.2 == bits with
  | none => simp [stands] at found
  | some entry =>
    rw [stands] at found
    have fine := List.all_eq_true.1 (all entry (List.mem_of_find?_eq_some stands)) c found
    simpa [and_assoc] using fine

end Field

/-! ## Words -/

namespace Word

variable {word : Word}

/-- The mnemonics of the bits of a word. -/
def mnemonics (word : Word) : Mnemonics :=
  ⟨Field.dest.mnemonic (word.bits 3 3), Field.comp.mnemonic (word.bits 6 7),
    Field.jump.mnemonic (word.bits 0 3)⟩

/-- The operation that a legal word is written as. -/
def operation (word : Word) : Operation :=
  if word < 0x8000 then .address (toString word.toNat) else .compute word.mnemonics.text

/-- The source that writes every word on a line of its own. -/
def program (words : List Word) : String :=
  Statement.source (words.map fun word => .operation word.operation)

theorem ofText_mnemonics (word : Word) :
    Mnemonics.ofText word.mnemonics.text = word.mnemonics := by
  apply Mnemonics.ofText_text
  · intro found
    exact (Field.of_mem_mnemonic found).2.1 rfl
  · intro found
    exact (Field.of_mem_mnemonic found).2.2.1 rfl

/-- Three bits are a destination and a jump. -/
theorem mem_table_of_three_bits (word : Word) (low : Nat) :
    word.bits low 3 ∈ Field.dest.table.map Prod.snd ∧
      word.bits low 3 ∈ Field.jump.table.map Prod.snd := by
  have all : ∀ n < 8, UInt16.ofNat n ∈ Field.dest.table.map Prod.snd ∧
      UInt16.ofNat n ∈ Field.jump.table.map Prod.snd := by decide
  exact all _ (Nat.mod_lt _ (by decide))

theorem bits?_mnemonics (comp : word.bits 6 7 ∈ Field.compTable.map Prod.snd) :
    Field.dest.bits? word.mnemonics.dest = some (word.bits 3 3) ∧
      Field.comp.bits? word.mnemonics.comp = some (word.bits 6 7) ∧
      Field.jump.bits? word.mnemonics.jump = some (word.bits 0 3) :=
  ⟨Field.bits?_mnemonic (mem_table_of_three_bits word 3).1, Field.bits?_mnemonic comp,
    Field.bits?_mnemonic (mem_table_of_three_bits word 0).2⟩

theorem isInk_of_mem_text_mnemonics {c : Char} (found : c ∈ word.mnemonics.text.toList) :
    Text.isInk c = true := by
  simp only [Mnemonics.toList_text, List.mem_append, List.mem_cons] at found
  rcases found with found | rfl | found | rfl | found
  · exact (Field.of_mem_mnemonic found).1
  · decide
  · exact (Field.of_mem_mnemonic found).1
  · decide
  · exact (Field.of_mem_mnemonic found).1

theorem head?_text_mnemonics_ne (word : Word) : word.mnemonics.text.toList.head? ≠ some '@' := by
  rw [Mnemonics.toList_text]
  cases chars : word.mnemonics.dest.toList with
  | nil => simp
  | cons c rest =>
    have plain : c ≠ '@' := (Field.of_mem_mnemonic (chars ▸ List.mem_cons_self)).2.2.2
    simpa using plain

theorem isInk_of_mem_numeral {c : Char} (found : c ∈ (toString word.toNat).toList) :
    Text.isInk c = true :=
  Text.isInk_of_isDigit (Literal.isDigit_of_mem_toString found)

theorem isInk_of_mem_operation {c : Char} (found : c ∈ word.operation.text.toList) :
    Text.isInk c = true := by
  unfold operation at found
  split at found
  · rw [Operation.text, String.toList_append, List.mem_append] at found
    rcases found with found | found
    · obtain rfl : c = '@' := by simpa using found
      decide
    · exact isInk_of_mem_numeral found
  · exact isInk_of_mem_text_mnemonics found

/-- An operation that a word is written as is read back. -/
theorem ofLine?_operation (word : Word) :
    Statement.ofLine? word.operation.text.toList = some (.operation word.operation) := by
  unfold operation
  split
  · exact Statement.ofLine?_address fun c found => isInk_of_mem_numeral found
  · have stated : word.mnemonics.text ≠ "" := by
      rw [ne_eq, ← String.toList_eq_nil_iff, Mnemonics.toList_text]
      simp
    exact Statement.ofLine?_compute (fun c found => isInk_of_mem_text_mnemonics found) stated
      (head?_text_mnemonics_ne word)

theorem ofSource_program (words : List Word) :
    Token.ofSource (program words) =
      (words.zipIdx 1).map fun placed => ⟨placed.2, .operation placed.1.operation⟩ := by
  rw [program, Token.ofSource_source, List.zipIdx_map, List.map_map]
  · rfl
  · intro statement found
    obtain ⟨word, -, rfl⟩ := List.mem_map.1 found
    exact Text.feed_notMem_of_isInk fun c inside => isInk_of_mem_operation inside
  · intro statement found
    obtain ⟨word, -, rfl⟩ := List.mem_map.1 found
    exact ofLine?_operation word

/-- The first walk finds no fault in the operation of a word. -/
theorem tokenFault?_operation (past : List Token) (line : Nat) (word : Word) :
    tokenFault? past ⟨line, .operation word.operation⟩ = none := by
  unfold operation
  split
  · rfl
  · have label : looksLikeLabel word.mnemonics.text = false :=
      Statement.looksLikeLabel_eq_false fun c found => isInk_of_mem_text_mnemonics found
    simp [tokenFault?, label]

/-- The second walk finds no fault in the operation of a legal word. -/
theorem commandFault?_operation (names : Names) (past : List Command) (line : Nat)
    (legal : word.IsLegal) : commandFault? names past ⟨line, word.operation⟩ = none := by
  rw [commandFault?, Option.map_eq_none_iff]
  by_cases small : word < 0x8000
  · have fits : ¬ 32767 < word.toNat := by
      have below : word.toNat < 32768 := UInt16.lt_iff_toNat_lt.1 small
      omega
    have numeral : toString word.toNat ≠ "" := by simp
    rw [operation, if_pos small]
    simp only [operandDefect?, addressDefect?, numeral, Literal.isNumeral_toString,
      Literal.value_toString, fits, if_true, if_false]
  · obtain ⟨dest, comp, jump⟩ := bits?_mnemonics (legal.resolve_left small).2
    rw [operation, if_neg small]
    simp [unknownMnemonics, ofText_mnemonics, dest, comp, jump]

/-- The operation that a legal word is written as is encoded as this word. -/
theorem encode_instruction_operation (names : Names) (commands : List Command)
    (legal : word.IsLegal) : (instruction names commands word.operation).encode = word := by
  by_cases small : word < 0x8000
  · rw [operation, if_pos small, instruction, operandAddress,
      if_pos (Literal.isNumeral_toString _), Literal.value_toString, Instruction.encode,
      UInt16.ofNat_toNat]
  · obtain ⟨mark, known⟩ := legal.resolve_left small
    obtain ⟨dest, comp, jump⟩ := bits?_mnemonics known
    rw [operation, if_neg small, instruction, computation, ofText_mnemonics]
    simp only [fieldBits, dest, comp, jump, Option.getD_some]
    exact Instruction.encode_compute_bits mark

/-! ## Programs -/

variable {words : List Word}

theorem commands_program (words : List Word) :
    Meaning.commands (Token.ofSource (program words)) =
      (words.zipIdx 1).map fun placed => ⟨placed.2, placed.1.operation⟩ := by
  rw [ofSource_program, Meaning.commands, List.filterMap_map,
    List.filterMap_eq_map_iff_forall_eq_some]
  exact fun placed _ => rfl

theorem fault?_program (legal : ∀ word ∈ words, word.IsLegal) :
    fault? (Token.ofSource (program words)) = none := by
  rw [fault?, Option.or_eq_none_iff, List.findSome?_eq_none_iff, List.findSome?_eq_none_iff]
  constructor
  · rintro ⟨past, token⟩ found
    have member := mem_of_mem_withPast found
    rw [ofSource_program] at member
    obtain ⟨placed, -, rfl⟩ := List.mem_map.1 member
    exact tokenFault?_operation past placed.2 placed.1
  · rintro ⟨past, command⟩ found
    have member := mem_of_mem_withPast found
    rw [commands_program] at member
    obtain ⟨placed, inside, rfl⟩ := List.mem_map.1 member
    exact commandFault?_operation _ past placed.2
      (legal placed.1 (List.fst_mem_of_mem_zipIdx inside))

theorem words_listing_program (legal : ∀ word ∈ words, word.IsLegal) :
    (listing (Token.ofSource (program words))).words = words.map Word.text := by
  have encoded (names : Names) (commands : List Command) (placed : Word × Nat)
      (inside : placed ∈ words.zipIdx 1) :
      (instruction names commands placed.1.operation).encode = placed.1 :=
    encode_instruction_operation names commands
      (legal placed.1 (List.fst_mem_of_mem_zipIdx inside))
  have code : (listing (Token.ofSource (program words))).code = words := by
    rw [code_listing, commands_program, List.map_map]
    exact (List.map_congr_left (encoded _ _)).trans (List.zipIdx_map_fst 1 words)
  rw [Listing.words_eq, code]

end Word

/-- The words that strict mode assembles are legal, and the instructions of the listing come back
from them; and all legal words are assembled, in either mode, from the source that is written for
them. -/
theorem strict_programs_are_legal_words :
    (∀ source listing, (assemble .strict source).outcome = .ok listing →
      (∀ text ∈ listing.words, text.toList.length = 16 ∧ (∀ c ∈ text.toList, c = '0' ∨ c = '1') ∧
        (Word.ofText text).IsLegal) ∧
      listing.words.map (fun text => Instruction.decode? (Word.ofText text)) =
        listing.entries.map fun entry => some entry.instruction) ∧
    ∀ (mode : Mode) (words : List Word), (∀ word ∈ words, word.IsLegal) →
      ∃ listing, (assemble mode (Word.program words)).outcome = .ok listing ∧
        listing.words = words.map Word.text := by
  constructor
  · intro source listing accepted
    have sound := sound_of_outcome_strict accepted
    obtain rfl : Meaning.listing (Token.ofSource source) = listing := by
      simpa [assemble_of_sound sound] using accepted
    constructor
    · intro text found
      obtain ⟨entry, member, rfl⟩ := List.mem_map.1 found
      have legal := isLegal_of_mem_listing sound member
      refine ⟨Word.length_text _, fun c inside => Word.eq_of_mem_text inside, ?_⟩
      rw [Instruction.text, Word.ofText_text]
      exact Instruction.isLegal_encode legal
    · rw [Listing.words, List.map_map]
      apply List.map_congr_left
      intro entry member
      have legal := isLegal_of_mem_listing sound member
      show Instruction.decode? (Word.ofText entry.instruction.text) = _
      rw [Instruction.text, Word.ofText_text, Instruction.decode?_encode legal]
  · intro mode words legal
    refine ⟨_, ?_, Word.words_listing_program legal⟩
    rw [assemble_of_sound (Word.fault?_program legal)]

theorem strict_programs_are_legal_words_loop :
    (∃ listing, (assemble .strict "@END\n(END)\n0;JMP").outcome = .ok listing ∧
      listing.words.map (fun text => Instruction.decode? (Word.ofText text)) =
        [some (.address 1), some (.compute 0 0b0101010 0b111)]) ∧
    ∃ listing, (assemble .strict (Word.program [1, 0xEA87])).outcome = .ok listing ∧
      listing.words = ["0000000000000001", "1110101010000111"] := by
  have accepted : (assemble .strict "@END\n(END)\n0;JMP").outcome = .ok
      ⟨[⟨0, 1, "@END", .address 1⟩, ⟨1, 3, "0;JMP", .compute 0 0b0101010 0b111⟩]⟩ := by
    decide +kernel
  have legal : ∀ word ∈ [1, 0xEA87], Word.IsLegal word :=
    List.forall_mem_cons.2 ⟨by decide, List.forall_mem_singleton.2 (by decide)⟩
  have decoded := (strict_programs_are_legal_words.1 _ _ accepted).2
  obtain ⟨listing, runs, words⟩ := strict_programs_are_legal_words.2 .strict _ legal
  exact ⟨⟨_, accepted, decoded⟩, listing, runs, words.trans (by decide)⟩

end HackAssembler
