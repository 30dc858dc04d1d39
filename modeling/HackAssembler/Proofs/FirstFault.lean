import HackAssembler.Proofs.Reference
import HackAssembler.Proofs.Tolerance

/-!
# The line of the first fault

Strict mode reports one fault, and goes over the program twice to find it. In each walk it reports
the first line that has a fault. So before a fault of the second walk there is no line that strict
mode would reject by itself. But a fault of the first walk is reported even if an earlier line has a
fault that only the second walk would have come to. Such an earlier line is an operation: an operand
is missing or too large, or a mnemonic is unknown (`line_before_reported`).

What is wrong with a line by itself is wrong with it in every program, since it has fewer tokens
before it and fewer names are declared.
-/

set_option autoImplicit false

namespace HackAssembler

open Text

/-- The defects that the encoding of an operation can come to. -/
def Defect.isOfOperation : Defect → Bool
  | unknownMnemonic _ _ => true
  | addressOutOfRange _ => true
  | missingOperand => true
  | malformedLabel _ => false
  | duplicateLabel _ _ => false

namespace Meaning

variable {tokens past : List Token} {reported : Fault} {names : Names}

/-! ## Order -/

theorem pairwise_commands (ordered : tokens.Pairwise (·.line < ·.line)) :
    (commands tokens).Pairwise (·.line < ·.line) := by
  rw [commands, List.pairwise_filterMap]
  refine ordered.imp ?_
  intro first second before command read command' read'
  obtain ⟨op, -, rfl⟩ := Option.map_eq_some_iff.1 read
  obtain ⟨op', -, rfl⟩ := Option.map_eq_some_iff.1 read'
  exact before

/-- Of two members of an ordered list the one on the earlier line is in the past of the other. -/
theorem mem_withPast_of_line_lt {α : Type} {list before before' : List (Located α)}
    {a a' : Located α} (ordered : list.Pairwise (·.line < ·.line))
    (found : (before, a) ∈ withPast list) (found' : (before', a') ∈ withPast list)
    (earlier : a.line < a'.line) : (before, a) ∈ withPast before' := by
  rcases withPast_total found found' with ⟨-, rfl⟩ | first | second
  · omega
  · exact first
  · obtain ⟨rest, rfl⟩ := mem_withPast.1 found
    have later := (List.pairwise_append.1 ordered).2.2 a' (mem_of_mem_withPast second) a
      List.mem_cons_self
    omega

/-- A walk over an ordered list finds no fault on a line before the one that it reports. -/
theorem none_before_reported {α : Type} {list before : List (Located α)} {a : Located α}
    (fault? : List (Located α) → Located α → Option Fault)
    (onLine : ∀ {before a fault}, fault? before a = some fault → fault.line = a.line)
    (ordered : list.Pairwise (·.line < ·.line))
    (first : (withPast list).findSome? (fun p => fault? p.1 p.2) = some reported)
    (found : (before, a) ∈ withPast list) (earlier : a.line < reported.line) :
    fault? before a = none := by
  obtain ⟨before', a', found', stated, silent⟩ := exists_first_of_findSome? first
  rw [onLine stated] at earlier
  exact silent _ (mem_withPast_of_line_lt ordered found found' earlier)

theorem line_of_tokenFault? {token : Token} {fault : Fault}
    (found : tokenFault? past token = some fault) : fault.line = token.line := by
  obtain ⟨defect, -, rfl⟩ := Option.map_eq_some_iff.1 found
  rfl

theorem line_of_commandFault? {before : List Command} {command : Command} {fault : Fault}
    (found : commandFault? names before command = some fault) : fault.line = command.line := by
  obtain ⟨defect, -, rfl⟩ := Option.map_eq_some_iff.1 found
  rfl

/-- On a line before the reported one the first walk finds nothing. -/
theorem tokenFault?_before_reported (found : fault? tokens = some reported)
    (ordered : tokens.Pairwise (·.line < ·.line)) {token : Token}
    (member : (past, token) ∈ withPast tokens) (earlier : token.line < reported.line) :
    tokenFault? past token = none := by
  cases first : (withPast tokens).findSome? (fun p => tokenFault? p.1 p.2) with
  | none => exact List.findSome?_eq_none_iff.1 first _ member
  | some fault =>
    rw [fault?, first, Option.some_or] at found
    obtain rfl := Option.some.inj found
    exact none_before_reported tokenFault? line_of_tokenFault? ordered first member earlier

/-- On a line before the reported one the second walk finds nothing, if it is the second walk that
the reported fault is from. -/
theorem commandFault?_before_reported (found : fault? tokens = some reported)
    (ordered : tokens.Pairwise (·.line < ·.line)) {before : List Command} {command : Command}
    (member : (before, command) ∈ withPast (commands tokens))
    (earlier : command.line < reported.line) :
    commandFault? (known? tokens) before command = none ∨
      ∃ p ∈ withPast tokens, tokenFault? p.1 p.2 = some reported := by
  cases first : (withPast tokens).findSome? (fun p => tokenFault? p.1 p.2) with
  | none =>
    rw [fault?, first, Option.none_or] at found
    exact Or.inl (none_before_reported (commandFault? (known? tokens)) line_of_commandFault?
      (pairwise_commands ordered) found member earlier)
  | some fault =>
    rw [fault?, first, Option.some_or] at found
    obtain rfl := Option.some.inj found
    exact Or.inr (List.exists_of_findSome?_eq_some first)

/-! ## A line by itself -/

/-- A label that is sound after some tokens is sound by itself. -/
theorem labelDefect?_nil {name : String} (sound : labelDefect? past name = none) :
    labelDefect? [] name = none := by
  unfold labelDefect? at sound ⊢
  split at sound
  · contradiction
  · rename_i plain
    split at sound
    · contradiction
    · rw [if_neg plain, if_neg (by simp [commands])]
      rw [Option.map_eq_none_iff, known?, Option.or_eq_none_iff] at sound ⊢
      exact ⟨rfl, sound.2⟩

theorem tokenFault?_nil {line line' : Nat} {statement : Statement}
    (sound : tokenFault? past ⟨line, statement⟩ = none) :
    tokenFault? [] ⟨line', statement⟩ = none := by
  unfold tokenFault? at sound ⊢
  rw [Option.map_eq_none_iff] at sound ⊢
  cases statement with
  | label name => exact labelDefect?_nil sound
  | operation op =>
    cases op with
    | address operand => rfl
    | compute text => exact sound

/-- By itself an operand is only wrong if it is wrong after all commands. -/
theorem operandDefect?_nil {names' : Names} {before : List Command} {operand : String}
    (sound : operandDefect? names before operand = none) :
    operandDefect? names' [] operand = none := by
  unfold operandDefect? addressDefect? at sound ⊢
  split at sound
  · contradiction
  · rename_i filled
    rw [if_neg filled]
    split
    · rename_i numeral
      rwa [if_pos numeral] at sound
    · have room : ¬ variableRoom ≤ (variableNames names' []).card := by
        simp [variableNames, operands, variableRoom]
      exact if_neg fun full => room full.2.2

theorem commandFault?_nil {names' : Names} {before : List Command} {line line' : Nat}
    {op : Operation} (sound : commandFault? names before ⟨line, op⟩ = none) :
    commandFault? names' [] ⟨line', op⟩ = none := by
  unfold commandFault? at sound ⊢
  rw [Option.map_eq_none_iff] at sound ⊢
  cases op with
  | address operand => exact operandDefect?_nil sound
  | compute text => exact sound

theorem isOfOperation_of_commandFault? {before : List Command} {command : Command} {fault : Fault}
    (found : commandFault? names before command = some fault) :
    fault.item.isOfOperation = true := by
  obtain ⟨defect, stated, rfl⟩ := Option.map_eq_some_iff.1 found
  split at stated
  · rename_i operand _
    unfold operandDefect? addressDefect? at stated
    split at stated
    · rw [← Option.some.inj stated]
      rfl
    · split at stated <;> split at stated
      all_goals first | contradiction | (rw [← Option.some.inj stated]; rfl)
  · obtain ⟨unknown, -, rfl⟩ := Option.map_eq_some_iff.1 stated
    rfl

/-- A program of one token has the fault of the first walk over it, or else that of the second. -/
theorem fault?_singleton (token : Token) :
    fault? [token] = (tokenFault? [] token).or
      (token.command?.bind fun command => commandFault? (known? [token]) [] command) := by
  have one {α β : Type} (a : α) (answer? : List α × α → Option β) :
      (withPast [a]).findSome? answer? = answer? ([], a) := by
    rw [← List.nil_append [a], withPast_concat, withPast_nil, List.nil_append,
      List.findSome?_singleton]
  rw [fault?, one]
  congr 1
  cases read : token.command? with
  | none => simp [commands, read]
  | some command => simp [commands, read, one]

end Meaning

/-- The tokens of a source that is one line only. -/
theorem Token.ofSource_line {line : List Char} (clean : '\n' ∉ line) :
    ofSource (String.ofList line) = (ofLine? 1 line).toList := by
  rw [ofSource, String.toList_ofList, lines_of_notMem clean]
  by_cases empty : line = []
  · rw [if_pos empty, empty]
    rfl
  · rw [if_neg empty, List.zipIdx_cons, List.zipIdx_nil, List.filterMap_cons, List.filterMap_nil]
    dsimp only
    cases ofLine? 1 line <;> rfl

open Meaning

/-- What strict mode has to say about a line before the one that it reports, when the line is taken
alone: the line is accepted, or else the reported fault is one of the first walk and the line is
rejected for an operation. -/
theorem line_before_reported {source : String} {reported : Fault}
    (rejected : (assemble .strict source).outcome = .error reported) {place : Nat}
    {line : List Char} (here : (lines source.toList)[place]? = some line)
    (earlier : place + 1 < reported.line) :
    (∃ listing, (assemble .strict (String.ofList line)).outcome = .ok listing) ∨
      (∃ p ∈ withPast (Token.ofSource source), tokenFault? p.1 p.2 = some reported) ∧
        ∃ defect, (assemble .strict (String.ofList line)).outcome = .error ⟨1, defect⟩ ∧
          defect.isOfOperation = true := by
  have clean : '\n' ∉ line := feed_notMem_of_mem_lines (List.mem_of_getElem? here)
  have found := fault_of_outcome_strict rejected
  have ordered := Token.pairwise_ofSource source
  rw [outcome_assemble, Mode.stops_strict, Token.ofSource_line clean, Token.ofLine?]
  cases read : Statement.ofLine? line with
  | none => exact Or.inl ⟨_, rfl⟩
  | some statement =>
    have token : ⟨place + 1, statement⟩ ∈ Token.ofSource source := by
      refine List.mem_filterMap.2 ⟨(line, place + 1), ?_, by simp [Token.ofLine?, read]⟩
      rw [List.mem_zipIdx_iff_le_and_getElem?_sub]
      exact ⟨Nat.le_add_left 1 place, here⟩
    obtain ⟨past, member⟩ := exists_past_of_mem token
    have sound := tokenFault?_before_reported found ordered member earlier
    rw [Option.map_some, Option.toList_some, fault?_singleton, tokenFault?_nil sound,
      Option.none_or]
    cases statement with
    | label name => exact Or.inl ⟨_, rfl⟩
    | operation op =>
      have one : (Token.command? ⟨1, .operation op⟩).bind
          (commandFault? (known? [⟨1, .operation op⟩]) []) =
            commandFault? (known? [⟨1, .operation op⟩]) [] ⟨1, op⟩ := rfl
      have command : ⟨place + 1, op⟩ ∈ commands (Token.ofSource source) :=
        mem_commands_iff.2 token
      obtain ⟨before, inside⟩ := exists_past_of_mem command
      rw [one]
      rcases commandFault?_before_reported found ordered inside earlier with right | first
      · rw [commandFault?_nil right]
        exact Or.inl ⟨_, rfl⟩
      · cases wrong : commandFault? (known? [⟨1, .operation op⟩]) [] ⟨1, op⟩ with
        | none => exact Or.inl ⟨_, rfl⟩
        | some fault =>
          obtain ⟨number, defect⟩ := fault
          obtain rfl : number = 1 := line_of_commandFault? wrong
          exact Or.inr ⟨first, defect, rfl, isOfOperation_of_commandFault? wrong⟩

/-- A fault of the second walk, with a line before it that is accepted alone. -/
theorem line_before_reported_accepted_alone :
    (assemble .strict "(A)\n0;JMP\n@A\nD=FOO").outcome = .error ⟨4, .unknownMnemonic .comp "FOO"⟩ ∧
      (lines "(A)\n0;JMP\n@A\nD=FOO".toList)[2]? = some "@A".toList ∧
      ∃ listing, (assemble .strict (String.ofList "@A".toList)).outcome = .ok listing := by
  have rejected : (assemble .strict "(A)\n0;JMP\n@A\nD=FOO").outcome =
      .error ⟨4, .unknownMnemonic .comp "FOO"⟩ := by
    decide +kernel
  have here : (lines "(A)\n0;JMP\n@A\nD=FOO".toList)[2]? = some "@A".toList := by decide +kernel
  have second : ¬ ∃ p ∈ withPast (Token.ofSource "(A)\n0;JMP\n@A\nD=FOO"),
      tokenFault? p.1 p.2 = some ⟨4, .unknownMnemonic .comp "FOO"⟩ := by
    decide +kernel
  exact ⟨rejected, here,
    (line_before_reported rejected here (by decide)).resolve_right fun first => second first.1⟩

/-- The reported line is not the first one that strict mode would reject by itself. -/
theorem reported_behind_rejected_line :
    (assemble .strict "D=FOO\n()").outcome = .error ⟨2, .malformedLabel "()"⟩ ∧
      (lines "D=FOO\n()".toList)[0]? = some "D=FOO".toList ∧
      (assemble .strict (String.ofList "D=FOO".toList)).outcome =
        .error ⟨1, .unknownMnemonic .comp "FOO"⟩ :=
  ⟨by decide +kernel, by decide +kernel, by decide +kernel⟩

end HackAssembler
