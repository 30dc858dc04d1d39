import HackAssembler.Proofs.LabelShape
import HackAssembler.Proofs.Silence

/-!
# What lenient mode warns of

Where strict mode stops at a fault, lenient mode changes something and goes on, and then it warns.
For three kinds of faults there is nothing to change: an operand that is missing is a variable
without a name, a label may have any name, and a label may be declared again where it is already.
These faults are passed over in silence, and a program that leaves no warning has no others.

A text that looks like a label is a fault of the first walk, but it is the second walk that warns
of it, for a mnemonic that a field does not know. A variable without room gets its own warning as
long as the counter has not wrapped around before. It has not in a silent program, and not before
the first fault of the second walk either, so the warning for the fault that strict mode reports
stands on its line.
-/

set_option autoImplicit false

namespace HackAssembler

namespace Meaning

/-- A fault of a program in one of the walks, not only the first one. -/
def IsFault (tokens : List Token) (fault : Fault) : Prop :=
  (∃ p ∈ withPast tokens, tokenFault? p.1 p.2 = some fault) ∨
    ∃ p ∈ withPast (commands tokens), commandFault? (known? tokens) p.1 p.2 = some fault

/-- The faults that are faults in strict mode only. -/
inductive Tolerated (tokens : List Token) : Fault → Prop where
  | missingOperand (line : Nat) : Tolerated tokens ⟨line, .missingOperand⟩
  | labelName {past : List Token} {line : Nat} {name : String}
    (declared : (past, ⟨line, .label name⟩) ∈ withPast tokens) (spoiled : isSpoiled name = true) :
    Tolerated tokens ⟨line, .malformedLabel ("(" ++ name ++ ")")⟩
  | samePlace {past : List Token} {line : Nat} {name : String}
    (declared : (past, ⟨line, .label name⟩) ∈ withPast tokens) :
    Tolerated tokens ⟨line, .duplicateLabel name (UInt16.ofNat (commands past).length)⟩

/-- One of the notices is a warning that speaks of the line. -/
def WarnsOn (notices : List Notice) (line : Nat) : Prop :=
  ∃ notice ∈ notices, notice.severity = .warn ∧ ∃ text, notice.text = onLine line text

theorem WarnsOn.mono {some_ all : List Notice} {line : Nat} (warns : WarnsOn some_ line)
    (among : ∀ notice ∈ some_, notice ∈ all) : WarnsOn all line := by
  obtain ⟨notice, said, warning⟩ := warns
  exact ⟨notice, among notice said, warning⟩

theorem warnsOn_label {past : List Token} {line : Nat} {name : String} {defect : Defect}
    (found : labelDefect? past name = some defect) :
    isSpoiled name = true ∧ defect = .malformedLabel ("(" ++ name ++ ")") ∨
      defect = .duplicateLabel name (UInt16.ofNat (commands past).length) ∨
      WarnsOn (labelNotices past line name) line := by
  unfold labelDefect? at found
  split at found
  · rename_i spoiled
    exact Or.inl ⟨spoiled, (Option.some.inj found).symm⟩
  split at found
  · rename_i far
    refine Or.inr (Or.inr ⟨.labelPastEnd line name (commands past).length, ?_, rfl, _, rfl⟩)
    simp [labelNotices, far]
  · obtain ⟨previous, known, rfl⟩ := Option.map_eq_some_iff.1 found
    refine Or.inr ?_
    by_cases same : previous = UInt16.ofNat (commands past).length
    · exact Or.inl (by rw [same])
    · refine Or.inr ⟨.labelMoved line name previous (UInt16.ofNat (commands past).length), ?_, rfl,
        _, rfl⟩
      simp [labelNotices, placement, known, same]

variable {names : Names} {past : List Command} {line : Nat}

theorem warnsOn_compute {text : String} (unknown : unknownMnemonics text ≠ []) :
    WarnsOn (commandNotices names past ⟨line, .compute text⟩) line := by
  obtain ⟨part, found⟩ := List.exists_mem_of_ne_nil _ unknown
  refine ⟨.mnemonicReplaced line part.1 part.2, ?_, rfl, _, rfl⟩
  exact List.mem_map.2 ⟨part, found, rfl⟩

/-- An operand without an address that fits is warned of, as long as the variables before it have
filled the addresses at most. -/
theorem warnsOn_operand {operand : String} {defect : Defect}
    (few : (variableNames names past).card ≤ variableRoom)
    (found : addressDefect? names past operand = some defect) :
    WarnsOn (operandNotices names past line operand) line := by
  unfold addressDefect? at found
  split at found
  · rename_i numeral
    have large : 32767 < Literal.value operand := by
      by_contra fits
      simp [fits] at found
    refine ⟨.literalCut line operand (UInt16.ofNat (Literal.value operand)), ?_, rfl, _, rfl⟩
    simp [operandNotices, numeral, large]
  · rename_i name
    split at found
    · rename_i full
      obtain ⟨new, fresh, full⟩ := full
      have past_end : maxAddress < variableAddress names past operand := by
        unfold variableRoom at few full
        rw [variableAddress, earlierVariables_of_notMem fresh, ← UInt16.not_le,
          ofNat_le_maxAddress_iff (by omega)]
        omega
      refine ⟨.variablePastEnd line operand, ?_, rfl, _, rfl⟩
      simp [operandNotices, name, new, fresh, past_end]
    · contradiction

theorem card_variableNames_le_of_sound {commands : List Command}
    (sound : ∀ p ∈ withPast commands, commandFault? names p.1 p.2 = none) :
    (variableNames names commands).card ≤ variableRoom := by
  apply card_variableNames_le_of_room
  intro past line operand found _ new fresh
  exact card_variableNames_lt_of_sound (addressDefect?_eq_none_of_sound (sound _ found)) new fresh

theorem warnsOn_command {command : Command} {fault : Fault}
    (few : (variableNames names past).card ≤ variableRoom)
    (found : commandFault? names past command = some fault) :
    fault = ⟨command.line, .missingOperand⟩ ∨
      WarnsOn (commandNotices names past command) fault.line := by
  obtain ⟨line, operation⟩ := command
  obtain ⟨defect, stated, rfl⟩ := Option.map_eq_some_iff.1 found
  cases operation with
  | compute text =>
    refine Or.inr (warnsOn_compute ?_)
    intro known
    simp [known] at stated
  | address operand =>
    dsimp only at stated
    unfold operandDefect? at stated
    split at stated
    · exact Or.inl (by rw [Option.some.inj stated])
    · exact Or.inr (warnsOn_operand few stated)

theorem tolerated_or_warnsOn_command {tokens : List Token} {command : Command} {fault : Fault}
    (few : (variableNames (known? tokens) past).card ≤ variableRoom)
    (member : (past, command) ∈ withPast (commands tokens))
    (found : commandFault? (known? tokens) past command = some fault) :
    Tolerated tokens fault ∨ WarnsOn (notices tokens) fault.line := by
  rcases warnsOn_command few found with rfl | warns
  · exact Or.inl (.missingOperand command.line)
  · refine Or.inr (warns.mono ?_)
    intro notice said
    exact mem_notices_iff.2 (Or.inr (Or.inr (Or.inl ⟨_, member, said⟩)))

/-- A text that looks like a label is warned of when the commands are encoded. -/
theorem warnsOn_looksLikeLabel {tokens : List Token} {text : String}
    (found : ⟨line, .operation (.compute text)⟩ ∈ tokens) (label : looksLikeLabel text = true) :
    WarnsOn (notices tokens) line := by
  have command : ⟨line, .compute text⟩ ∈ commands tokens :=
    List.mem_filterMap.2 ⟨_, found, rfl⟩
  obtain ⟨past, member⟩ := exists_past_of_mem command
  apply (warnsOn_compute (unknownMnemonics_ne_nil label)).mono
  intro notice said
  exact mem_notices_iff.2 (Or.inr (Or.inr (Or.inl ⟨_, member, said⟩)))

theorem tolerated_or_warnsOn_token {tokens past : List Token} {token : Token} {fault : Fault}
    (member : (past, token) ∈ withPast tokens) (found : tokenFault? past token = some fault) :
    Tolerated tokens fault ∨ WarnsOn (notices tokens) fault.line := by
  obtain ⟨line, statement⟩ := token
  obtain ⟨defect, stated, rfl⟩ := Option.map_eq_some_iff.1 found
  cases statement with
  | label name =>
    rcases warnsOn_label stated with ⟨spoiled, rfl⟩ | rfl | warns
    · exact Or.inl (.labelName member spoiled)
    · exact Or.inl (.samePlace member)
    · refine Or.inr (warns.mono ?_)
      intro notice said
      exact mem_notices_iff.2 (Or.inl ⟨_, member, said⟩)
  | operation op =>
    cases op with
    | address operand => contradiction
    | compute text =>
      have label : looksLikeLabel text = true := by
        by_contra plain
        simp [plain] at stated
      exact Or.inr (warnsOn_looksLikeLabel (mem_of_mem_withPast member) label)

/-- The fault for which strict mode rejects a program is tolerated, or warned of on its line. -/
theorem tolerated_or_warnsOn {tokens : List Token} {fault : Fault}
    (found : fault? tokens = some fault) :
    Tolerated tokens fault ∨ WarnsOn (notices tokens) fault.line := by
  rcases Option.or_eq_some_iff.1 found with first | ⟨-, second⟩
  · obtain ⟨past, token, member, stated, -⟩ := exists_first_of_findSome? first
    exact tolerated_or_warnsOn_token member stated
  · obtain ⟨past, command, member, stated, before⟩ := exists_first_of_findSome? second
    exact tolerated_or_warnsOn_command (card_variableNames_le_of_sound before) member stated

/-- All faults of a program that leaves no warning are tolerated. -/
theorem tolerated_of_quiet {tokens : List Token} {fault : Fault} (quiet : Quiet (notices tokens))
    (found : IsFault tokens fault) : Tolerated tokens fault := by
  have tolerated : Tolerated tokens fault ∨ WarnsOn (notices tokens) fault.line := by
    rcases found with ⟨p, member, stated⟩ | ⟨p, member, stated⟩
    · exact tolerated_or_warnsOn_token member stated
    · refine tolerated_or_warnsOn_command (card_variableNames_le_of_quiet ?_) member stated
      intro q before
      exact (quiet_notices quiet).2 q (mem_withPast_of_mem_past member before)
  apply tolerated.resolve_right
  rintro ⟨notice, said, warns, -⟩
  exact quiet notice said warns

end Meaning

open Meaning

/-- When strict mode rejects a source, lenient mode warns of it if any of its faults is not
tolerated; and if this is the fault that strict mode reports, it warns on the line of the fault. -/
theorem warned_of_rejected {source : String} {reported : Fault}
    (rejected : (assemble .strict source).outcome = .error reported) :
    (∀ fault, IsFault (Token.ofSource source) fault → ¬ Tolerated (Token.ofSource source) fault →
      ∃ record ∈ (assemble .lenient source).trail.map Notice.record, record.severity = .warn) ∧
    (¬ Tolerated (Token.ofSource source) reported →
      ∃ record ∈ (assemble .lenient source).trail.map Notice.record,
        record.severity = .warn ∧ ∃ text, record.text = onLine reported.line text) := by
  rw [trail_assemble_lenient]
  constructor
  · intro fault found noticed
    by_contra silent
    apply noticed
    refine tolerated_of_quiet ?_ found
    intro notice said warns
    exact silent ⟨notice.record, List.mem_map_of_mem said, warns⟩
  · intro noticed
    rcases tolerated_or_warnsOn (fault_of_outcome_strict rejected) with tolerated | warns
    · exact absurd tolerated noticed
    · obtain ⟨notice, said, warning⟩ := warns
      exact ⟨notice.record, List.mem_map_of_mem said, warning⟩

/-- Strict mode reports a label that is declared again where it is, which is tolerated, and behind
it the label is moved, which is not. -/
theorem warned_of_rejected_moved_label :
    (assemble .strict "(A)\n(A)\n@A\n(A)").outcome = .error ⟨2, .duplicateLabel "A" 0⟩ ∧
      IsFault (Token.ofSource "(A)\n(A)\n@A\n(A)") ⟨4, .duplicateLabel "A" 0⟩ ∧
      ¬ Tolerated (Token.ofSource "(A)\n(A)\n@A\n(A)") ⟨4, .duplicateLabel "A" 0⟩ ∧
      ∃ record ∈ (assemble .lenient "(A)\n(A)\n@A\n(A)").trail.map Notice.record,
        record.severity = .warn := by
  have rejected : (assemble .strict "(A)\n(A)\n@A\n(A)").outcome =
      .error ⟨2, .duplicateLabel "A" 0⟩ := by
    decide +kernel
  have tokens : Token.ofSource "(A)\n(A)\n@A\n(A)" = [⟨1, .label "A"⟩, ⟨2, .label "A"⟩,
      ⟨3, .operation (.address "A")⟩, ⟨4, .label "A"⟩] := by
    decide +kernel
  have found : IsFault (Token.ofSource "(A)\n(A)\n@A\n(A)") ⟨4, .duplicateLabel "A" 0⟩ := by
    rw [tokens]
    refine Or.inl ⟨([⟨1, .label "A"⟩, ⟨2, .label "A"⟩, ⟨3, .operation (.address "A")⟩],
      ⟨4, .label "A"⟩), mem_withPast.2 ⟨[], rfl⟩, ?_⟩
    decide +kernel
  have noticed :
      ¬ Tolerated (Token.ofSource "(A)\n(A)\n@A\n(A)") ⟨4, .duplicateLabel "A" 0⟩ := by
    rw [tokens]
    intro tolerated
    generalize same : (⟨4, .duplicateLabel "A" 0⟩ : Fault) = fault at tolerated
    cases tolerated with
    | missingOperand line => simp at same
    | labelName declared spoiled => simp at same
    | @samePlace past line name declared =>
      simp only [Located.mk.injEq, Defect.duplicateLabel.injEq] at same
      obtain ⟨rfl, rfl, place⟩ := same
      obtain rfl : past = [⟨1, .label "A"⟩, ⟨2, .label "A"⟩,
          ⟨3, .operation (.address "A")⟩] := by
        simpa [withPast] using declared
      exact absurd place (by decide)
  exact ⟨rejected, found, noticed, (warned_of_rejected rejected).1 _ found noticed⟩

/-- Faults that lenient mode passes over: an operand is missing, a name has blanks, and a label is
declared twice at one place. -/
theorem rejected_without_warning :
    ((assemble .strict "@").outcome = .error ⟨1, .missingOperand⟩ ∧
      ∀ record ∈ (assemble .lenient "@").trail.map Notice.record, record.severity ≠ .warn) ∧
    ((assemble .strict "( A )").outcome = .error ⟨1, .malformedLabel "( A )"⟩ ∧
      ∀ record ∈ (assemble .lenient "( A )").trail.map Notice.record, record.severity ≠ .warn) ∧
    (assemble .strict "(A)\n(A)").outcome = .error ⟨2, .duplicateLabel "A" 0⟩ ∧
      ∀ record ∈ (assemble .lenient "(A)\n(A)").trail.map Notice.record,
        record.severity ≠ .warn := by
  decide +kernel

end HackAssembler
