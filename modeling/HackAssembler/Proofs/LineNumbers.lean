import HackAssembler.Proofs.Assembly
import HackAssembler.Proofs.Lines

/-!
# Line numbers in the meaning of a program

Line numbers are carried along and never looked at. If the tokens of a program are moved to other
lines, then its labels, operands and addresses stay what they are, its faults are found in the same
places, and the entries of its listing are moved to these lines (`listing_moved`, `fault?_moved`).
So what a program means is settled, up to line numbers, by what its tokens say one after the other.
-/

set_option autoImplicit false

namespace HackAssembler

def Entry.moved (move : Nat → Nat) (entry : Entry) : Entry :=
  { entry with line := move entry.line }

theorem Token.command?_moved (move : Nat → Nat) (token : Token) :
    command? (token.moved move) = (command? token).map (Located.moved move) := by
  obtain ⟨line, statement⟩ := token
  cases statement <;> rfl

namespace Meaning

variable (move : Nat → Nat) (tokens past : List Token) (commands : List Command)
  (names : Names)

@[simp] theorem commands_moved :
    Meaning.commands (tokens.map (Located.moved move)) =
      (Meaning.commands tokens).map (Located.moved move) := by
  rw [Meaning.commands, List.filterMap_map, Meaning.commands, List.map_filterMap]
  exact congrArg (List.filterMap · tokens) (funext (Token.command?_moved move))

@[simp] theorem declarations_moved :
    declarations (tokens.map (Located.moved move)) = declarations tokens := by
  rw [declarations, withPast_map, List.filterMap_map, declarations]
  congr 1
  funext p
  simp [Located.moved]

@[simp] theorem known?_moved : known? (tokens.map (Located.moved move)) = known? tokens := by
  unfold known? labelPlace?
  rw [declarations_moved]

@[simp] theorem operands_moved :
    operands (commands.map (Located.moved move)) = operands commands := by
  rw [operands, List.filterMap_map]
  rfl

@[simp] theorem variableNames_moved :
    variableNames names (commands.map (Located.moved move)) = variableNames names commands := by
  rw [variableNames, operands_moved, variableNames]

@[simp] theorem instruction_moved :
    instruction names (commands.map (Located.moved move)) = instruction names commands := by
  funext op
  cases op with
  | address operand =>
    simp only [instruction, operandAddress, variableAddress, earlierVariables, operands_moved]
  | compute text => rfl

theorem listing_moved :
    (listing (tokens.map (Located.moved move))).entries =
      (listing tokens).entries.map (Entry.moved move) := by
  simp only [listing, commands_moved, known?_moved, List.zipIdx_map, List.map_map]
  apply List.map_congr_left
  intro placed _
  simp [entry, Entry.moved, Located.moved]

theorem tokenFault?_moved (token : Token) :
    tokenFault? (past.map (Located.moved move)) (token.moved move) =
      (tokenFault? past token).map (Located.moved move) := by
  rw [tokenFault?, tokenFault?, Option.map_map]
  simp only [Located.moved, labelDefect?, commands_moved, List.length_map, known?_moved]
  rfl

theorem commandFault?_moved (command : Command) :
    commandFault? names (commands.map (Located.moved move)) (command.moved move) =
      (commandFault? names commands command).map (Located.moved move) := by
  rw [commandFault?, commandFault?, Option.map_map]
  simp only [Located.moved, operandDefect?, addressDefect?, operands_moved, variableNames_moved]
  rfl

theorem fault?_moved :
    fault? (tokens.map (Located.moved move)) = (fault? tokens).map (Located.moved move) := by
  simp only [fault?, commands_moved, known?_moved, withPast_map, List.findSome?_map,
    Function.comp_def, tokenFault?_moved, commandFault?_moved, Option.map_or, List.map_findSome?]

end Meaning

end HackAssembler
