import HackAssembler.Proofs.Decoding
import HackAssembler.Proofs.Strictness

/-!
# Fields of a program without a fault

In a program without a fault every operand stands for an address: a numeral is not too large, a
label is not declared too late, the reserved names are low enough, and there is room for the
variables. With mnemonics that the fields know, this makes every instruction legal.
-/

set_option autoImplicit false

namespace HackAssembler.Meaning

theorem mem_of_lookup_eq_some {β : Type} {entries : List (String × β)} {key : String} {value : β}
    (found : entries.lookup key = some value) : (key, value) ∈ entries := by
  obtain ⟨before, after, rfl, -⟩ := List.lookup_eq_some_iff.1 found
  exact List.mem_append_right _ List.mem_cons_self

/-! ## Labels -/

variable {tokens : List Token} {name : String}

theorem mem_declarations_of_labelPlace? {place : Nat}
    (placed : labelPlace? tokens name = some place) : (name, place) ∈ declarations tokens :=
  List.mem_reverse.1 (mem_of_lookup_eq_some placed)

theorem labelPlace?_le {place : Nat}
    (sound : ∀ p ∈ withPast tokens, tokenFault? p.1 p.2 = none)
    (placed : labelPlace? tokens name = some place) : place ≤ 32767 := by
  obtain ⟨past, line, found, rfl⟩ :=
    exists_past_of_mem_declarations (mem_declarations_of_labelPlace? placed)
  have fine : labelDefect? past name = none := Option.map_eq_none_iff.1 (sound _ found)
  by_contra far
  unfold labelDefect? at fine
  rw [if_pos (Nat.not_le.1 far)] at fine
  split at fine <;> contradiction

theorem reserved_le {address : Word} (reserved : reservedNames.lookup name = some address) :
    address ≤ maxAddress := by
  have all : ∀ entry ∈ reservedNames, entry.2 ≤ maxAddress := by decide
  exact all (name, address) (mem_of_lookup_eq_some reserved)

/-- What is known of a name, once the labels are placed without a fault, is an address. -/
theorem known?_le {address : Word} (sound : ∀ p ∈ withPast tokens, tokenFault? p.1 p.2 = none)
    (known : known? tokens name = some address) : address ≤ maxAddress := by
  unfold known? at known
  cases placed : labelPlace? tokens name with
  | none =>
    rw [placed, Option.map_none, Option.none_or] at known
    exact reserved_le known
  | some place =>
    obtain rfl : UInt16.ofNat place = address := by simpa [placed] using known
    have fits := labelPlace?_le sound placed
    exact (ofNat_le_maxAddress_iff (by omega)).2 fits

/-! ## Operands -/

variable {names : Names} {commands : List Command} {operand : String}

/-- An operand that comes up does so for the first time somewhere. -/
theorem exists_first_of_mem_operands (found : operand ∈ operands commands) :
    ∃ past line, (past, ⟨line, .address operand⟩) ∈ withPast commands ∧
      operand ∉ operands past := by
  induction commands using List.reverseRecOn with
  | nil => simp [operands] at found
  | append_singleton past last ih =>
    rw [withPast_concat]
    by_cases earlier : operand ∈ operands past
    · obtain ⟨before, line, member, fresh⟩ := ih earlier
      exact ⟨before, line, List.mem_append_left _ member, fresh⟩
    · obtain ⟨line, operation⟩ := last
      cases operation with
      | compute text => exact absurd found (by rwa [operands_concat_compute])
      | address other =>
        obtain rfl : operand = other := by
          rw [operands_concat_address, List.mem_append, List.mem_singleton] at found
          exact found.resolve_left earlier
        exact ⟨past, line, List.mem_append_right _ List.mem_cons_self, earlier⟩

/-- A variable lies within the addresses, because there was room for it when it came up first. -/
theorem variableAddress_le_of_sound
    (sound : ∀ p ∈ withPast commands, commandFault? names p.1 p.2 = none)
    (found : operand ∈ operands commands) (new : isVariable names operand = true) :
    variableAddress names commands operand ≤ maxAddress := by
  -- Its address was settled there, and later commands do not change it.
  obtain ⟨past, line, member, fresh⟩ := exists_first_of_mem_operands found
  have fine := addressDefect?_eq_none_of_sound (sound _ member)
  have room := card_variableNames_lt_of_sound fine new fresh
  obtain ⟨rest, rfl⟩ := mem_withPast.1 member
  rw [variableAddress, earlierVariables_append_cons]
  exact variableAddress_le fresh room

theorem value_le_of_sound
    (sound : ∀ p ∈ withPast commands, commandFault? names p.1 p.2 = none)
    (found : operand ∈ operands commands) (numeral : Literal.isNumeral operand = true) :
    Literal.value operand ≤ 32767 := by
  obtain ⟨past, line, member, -⟩ := exists_first_of_mem_operands found
  have fine := addressDefect?_eq_none_of_sound (sound _ member)
  by_contra large
  simp [addressDefect?, numeral, Nat.not_le.1 large] at fine

/-- An operand stands for an address if a numeral, a known name and a variable do. -/
theorem operandAddress_le
    (numeral : Literal.isNumeral operand = true → Literal.value operand ≤ 32767)
    (known : ∀ address, names operand = some address → address ≤ maxAddress)
    (placed : isVariable names operand = true →
      variableAddress names commands operand ≤ maxAddress) :
    operandAddress names commands operand ≤ maxAddress := by
  unfold operandAddress
  split
  · rename_i digits
    have fits := numeral digits
    exact (ofNat_le_maxAddress_iff (by omega)).2 fits
  · rename_i name
    cases stands : names operand with
    | some address => exact known address stands
    | none => exact placed (by simp [isVariable, name, stands])

/-! ## Instructions -/

/-- A computation whose mnemonics the fields know has the bits of all three. -/
theorem bits?_eq_some_of_known {text : String} (known : unknownMnemonics text = []) :
    Field.dest.bits? (Mnemonics.ofText text).dest =
        some (fieldBits .dest (Mnemonics.ofText text).dest) ∧
      Field.comp.bits? (Mnemonics.ofText text).comp =
        some (fieldBits .comp (Mnemonics.ofText text).comp) ∧
      Field.jump.bits? (Mnemonics.ofText text).jump =
        some (fieldBits .jump (Mnemonics.ofText text).jump) := by
  have bits (field : Field) (mnemonic : String) (part : ¬ (field.bits? mnemonic).isNone) :
      field.bits? mnemonic = some (fieldBits field mnemonic) := by
    obtain ⟨bits, found⟩ := Option.ne_none_iff_exists'.1 (by simpa using part)
    rw [fieldBits, found, Option.getD_some]
  simp only [unknownMnemonics, List.filter_eq_nil_iff, List.mem_cons, List.not_mem_nil, or_false,
    forall_eq_or_imp, forall_eq] at known
  obtain ⟨dest, comp, jump⟩ := known
  exact ⟨bits _ _ dest, bits _ _ comp, bits _ _ jump⟩

theorem isLegal_computation {text : String} (known : unknownMnemonics text = []) :
    (computation text).IsLegal := by
  obtain ⟨dest, comp, jump⟩ := bits?_eq_some_of_known known
  have destBits : ∀ entry ∈ Field.dest.table, entry.2 < 8 := by decide
  have jumpBits : ∀ entry ∈ Field.jump.table, entry.2 < 8 := by decide
  unfold computation Instruction.IsLegal
  refine ⟨?_, ?_, ?_⟩
  · exact destBits (_, fieldBits _ _) (mem_of_lookup_eq_some dest)
  · rw [List.mem_map]
    exact ⟨(_, fieldBits _ _), mem_of_lookup_eq_some comp, rfl⟩
  · exact jumpBits (_, fieldBits _ _) (mem_of_lookup_eq_some jump)

theorem isLegal_instruction (sound : fault? tokens = none) {command : Command}
    (found : command ∈ Meaning.commands tokens) :
    (instruction (known? tokens) (Meaning.commands tokens) command.item).IsLegal := by
  obtain ⟨first, second⟩ := Option.or_eq_none_iff.1 sound
  rw [List.findSome?_eq_none_iff] at first second
  obtain ⟨line, operation⟩ := command
  cases operation with
  | address operand =>
    have comesUp : operand ∈ operands (Meaning.commands tokens) := mem_operands_iff.2 ⟨line, found⟩
    have fits := operandAddress_le (value_le_of_sound second comesUp) (fun _ => known?_le first)
      (variableAddress_le_of_sound second comesUp)
    exact UInt16.lt_of_le_of_lt fits (by decide)
  | compute text =>
    obtain ⟨past, member⟩ := exists_past_of_mem found
    have fine := Option.map_eq_none_iff.1 (second _ member)
    exact isLegal_computation (by simpa using fine)

/-- Every instruction of a program without a fault is legal. -/
theorem isLegal_of_mem_listing (sound : fault? tokens = none) {entry : Entry}
    (found : entry ∈ (listing tokens).entries) : entry.instruction.IsLegal := by
  obtain ⟨⟨command, place⟩, placed, rfl⟩ := List.mem_map.1 found
  exact isLegal_instruction sound (List.fst_mem_of_mem_zipIdx placed)

end HackAssembler.Meaning
