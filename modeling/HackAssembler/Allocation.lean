import HackAssembler.Mode
import HackAssembler.Operand
import HackAssembler.SymbolTable

/-!
# Allocation of variables

What the operands of address instructions stand for, once the labels are placed. A literal stands
for itself and a known name for its address. Any other name is a variable: it gets the next free
address when it is met first, and is known from then on.
-/

set_option autoImplicit false

namespace HackAssembler

/-- The names known so far, and the address for the next variable. -/
structure Allocation where
  symbols : SymbolTable
  next : Word

namespace Allocation

/-- The allocation before the first operation, for a program whose labels are placed. -/
def start (symbols : SymbolTable) : Allocation := ⟨symbols, variableBase⟩

/-- How many variables have an address, counted in sixteen bits. -/
def count (allocation : Allocation) : Word := allocation.next - variableBase

/-- Gives the next free address to a new variable. -/
def allocate (mode : Mode) (allocation : Allocation) (line : Nat) (name : String) :
    Assembly (Allocation × Word) := do
  let address := allocation.next
  mode.expect (decide (address ≤ maxAddress)) line (.addressOutOfRange name)
    (.variablePastEnd line name)
  match allocation.symbols.bind name address with
  | .ok symbols =>
    .note (.variablePlaced name address)
    return (⟨symbols, address + 1⟩, address)
  | .error previous => return (allocation, previous)

/-- Finds the address that an operand stands for. -/
def resolve (mode : Mode) (allocation : Allocation) (line : Nat) (operand : String) :
    Assembly (Allocation × Word) := do
  mode.demand (!operand.isEmpty) line .missingOperand
  match Literal.ofText? operand with
  | some literal =>
    mode.expect (!literal.outOfRange) line (.addressOutOfRange operand)
      (.literalCut line operand literal.low)
    return (allocation, literal.low)
  | none =>
    match allocation.symbols.lookup operand with
    | some address => return (allocation, address)
    | none => allocation.allocate mode line operand

end Allocation

end HackAssembler
