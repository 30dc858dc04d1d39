import HackAssembler.Proofs.Assembly

/-!
# Strict mode restricts lenient mode

Whatever lenient mode warns of is a fault in strict mode, at the same token. So a program without a
fault leaves no warning, and then the two modes cannot be told apart.
-/

set_option autoImplicit false

namespace HackAssembler

namespace Meaning

variable {names : Names} {notice : Notice}

theorem not_warn_of_mem_labelNotices {past : List Token} {line : Nat} {name : String}
    (sound : labelDefect? past name = none) (said : notice ∈ labelNotices past line name) :
    notice.severity ≠ .warn := by
  have clean : isSpoiled name = false := by
    by_contra spoiled
    rw [labelDefect?, if_pos (by simpa using spoiled)] at sound
    contradiction
  have fits : ¬ 32767 < (commands past).length := by
    intro far
    simp [labelDefect?, clean, far] at sound
  have unknown : known? past name = none := by
    simpa [labelDefect?, clean, fits] using sound
  obtain rfl : notice = .labelPlaced name (UInt16.ofNat (commands past).length) := by
    simpa [labelNotices, placement, fits, unknown] using said
  simp [Notice.severity]

theorem not_warn_of_mem_tokenNotices {past : List Token} {token : Token}
    (sound : tokenFault? past token = none) (said : notice ∈ tokenNotices past token) :
    notice.severity ≠ .warn := by
  obtain ⟨line, statement⟩ := token
  cases statement with
  | label name => exact not_warn_of_mem_labelNotices (Option.map_eq_none_iff.1 sound) said
  | operation op => simp [tokenNotices] at said

/-- A new variable that is no fault lies within the addresses, so it is not said to lie past their
end. -/
theorem variableAddress_le {past : List Command} {operand : String}
    (fresh : operand ∉ operands past) (room : (variableNames names past).card < variableRoom) :
    variableAddress names past operand ≤ maxAddress := by
  unfold variableRoom at room
  rw [variableAddress, earlierVariables_of_notMem fresh, ofNat_le_maxAddress_iff (by omega)]
  omega

theorem not_warn_of_mem_operandNotices {past : List Command} {line : Nat} {operand : String}
    (sound : addressDefect? names past operand = none)
    (said : notice ∈ operandNotices names past line operand) : notice.severity ≠ .warn := by
  unfold operandNotices at said
  split at said
  · rename_i numeral
    by_cases large : 32767 < Literal.value operand
    · simp [addressDefect?, numeral, large] at sound
    · simp [large] at said
  · split at said
    · rename_i new
      have room := card_variableNames_lt_of_sound sound new.1 new.2
      obtain rfl : notice = .variablePlaced operand (variableAddress names past operand) := by
        simpa [UInt16.not_lt.2 (variableAddress_le new.2 room)] using said
      simp [Notice.severity]
    · contradiction

theorem not_warn_of_mem_commandNotices {past : List Command} {command : Command}
    (sound : commandFault? names past command = none)
    (said : notice ∈ commandNotices names past command) : notice.severity ≠ .warn := by
  obtain ⟨line, operation⟩ := command
  have sound := Option.map_eq_none_iff.1 sound
  cases operation with
  | address operand =>
    refine not_warn_of_mem_operandNotices ?_ said
    by_cases empty : operand = ""
    · simp [operandDefect?, empty] at sound
    · simpa [operandDefect?, empty] using sound
  | compute text =>
    have known : unknownMnemonics text = [] := by simpa using sound
    simp [commandNotices, known] at said

/-- What is said about a program is said about a token, about a command, or at the end of a
walk. -/
theorem mem_notices_iff {tokens : List Token} :
    notice ∈ notices tokens ↔
      (∃ p ∈ withPast tokens, notice ∈ tokenNotices p.1 p.2) ∨
      notice = .labelsDone (commands tokens).length (symbolCount tokens) ∨
      (∃ p ∈ withPast (commands tokens), notice ∈ commandNotices (known? tokens) p.1 p.2) ∨
      notice = .encodingDone
        (UInt16.ofNat (variableNames (known? tokens) (commands tokens)).card) := by
  simp only [notices, List.mem_append, List.mem_cons, List.mem_flatMap, List.not_mem_nil,
    or_false, or_assoc]

/-- A program without a fault leaves no warning. -/
theorem not_warn_of_mem_notices {tokens : List Token} (sound : fault? tokens = none)
    (said : notice ∈ notices tokens) : notice.severity ≠ .warn := by
  obtain ⟨first, second⟩ := Option.or_eq_none_iff.1 sound
  rw [List.findSome?_eq_none_iff] at first second
  rcases mem_notices_iff.1 said with ⟨p, found, said⟩ | rfl | ⟨p, found, said⟩ | rfl
  · exact not_warn_of_mem_tokenNotices (first p found) said
  · simp [Notice.severity]
  · exact not_warn_of_mem_commandNotices (second p found) said
  · simp [Notice.severity]

end Meaning

open Meaning

theorem sound_of_outcome_strict {source : String} {listing : Listing}
    (accepted : (assemble .strict source).outcome = .ok listing) :
    fault? (Token.ofSource source) = none := by
  cases found : fault? (Token.ofSource source) with
  | none => rfl
  | some fault => rw [outcome_strict_of_fault found] at accepted; contradiction

theorem fault_of_outcome_strict {source : String} {fault : Fault}
    (rejected : (assemble .strict source).outcome = .error fault) :
    fault? (Token.ofSource source) = some fault := by
  cases found : fault? (Token.ofSource source) with
  | none => rw [assemble_of_sound found] at rejected; contradiction
  | some other =>
    rw [outcome_strict_of_fault found] at rejected
    rw [Except.error.inj rejected]

/-- What strict mode accepts, lenient mode assembles to the same listing, with the same records and
none of them a warning; and where lenient mode leaves a warning, strict mode rejects the source. -/
theorem strict_restricts_lenient (source : String) :
    (∀ listing, (assemble .strict source).outcome = .ok listing →
      (assemble .lenient source).outcome = .ok listing ∧
      (assemble .lenient source).trail.map Notice.record =
        (assemble .strict source).trail.map Notice.record ∧
      ∀ record ∈ (assemble .lenient source).trail.map Notice.record, record.severity ≠ .warn) ∧
    ((∃ record ∈ (assemble .lenient source).trail.map Notice.record, record.severity = .warn) →
      ∃ fault, (assemble .strict source).outcome = .error fault) := by
  have silent (sound : fault? (Token.ofSource source) = none) (record : Record)
      (said : record ∈ (assemble .lenient source).trail.map Notice.record) :
      record.severity ≠ .warn := by
    rw [assemble_of_sound sound] at said
    obtain ⟨notice, found, rfl⟩ := List.mem_map.1 said
    exact not_warn_of_mem_notices sound found
  constructor
  · intro listing accepted
    have sound := sound_of_outcome_strict accepted
    have same : assemble .lenient source = assemble .strict source := by
      rw [assemble_of_sound sound, assemble_of_sound sound]
    exact ⟨by rw [same, accepted], by rw [same], silent sound⟩
  · rintro ⟨record, said, warns⟩
    cases found : fault? (Token.ofSource source) with
    | none => exact absurd warns (silent found record said)
    | some fault => exact ⟨fault, outcome_strict_of_fault found⟩

theorem strict_restricts_lenient_small_and_large_numeral :
    ((assemble .lenient "@7").outcome = .ok ⟨[⟨0, 1, "@7", .address 7⟩]⟩ ∧
      ∀ record ∈ (assemble .lenient "@7").trail.map Notice.record, record.severity ≠ .warn) ∧
    ∃ fault, (assemble .strict "@32768").outcome = .error fault := by
  have accepted : (assemble .strict "@7").outcome = .ok ⟨[⟨0, 1, "@7", .address 7⟩]⟩ := by
    decide +kernel
  have warned : ∃ record ∈ (assemble .lenient "@32768").trail.map Notice.record,
      record.severity = .warn := by
    decide +kernel
  obtain ⟨same, -, silent⟩ := (strict_restricts_lenient "@7").1 _ accepted
  exact ⟨⟨same, silent⟩, (strict_restricts_lenient "@32768").2 warned⟩

end HackAssembler
