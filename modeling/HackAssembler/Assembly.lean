import HackAssembler.Allocation
import HackAssembler.Encoding
import HackAssembler.Layout
import HackAssembler.Listing

/-!
# Assembly of a source

A source is assembled in two walks. The first one lays out its tokens and so places its labels; the
second one encodes its commands, giving addresses to the variables as they come up. So a name may
be used before the label that declares it.
-/

set_option autoImplicit false

namespace HackAssembler

/-- The instruction that a command asks for. -/
def Command.encode (mode : Mode) (allocation : Allocation) (command : Command) :
    Assembly (Allocation × Instruction) :=
  match command.item with
  | .address operand => do
    let (allocation, address) ← allocation.resolve mode command.line operand
    return (allocation, .address address)
  | .compute text => do
    let instruction ← (Mnemonics.ofText text).encode mode command.line
    return (allocation, instruction)

/-- The entry for the command at some place of the program. -/
def Entry.ofCommand (mode : Mode) (allocation : Allocation) (placed : Command × Nat) :
    Assembly (Allocation × Entry) := do
  let (command, address) := placed
  let (allocation, instruction) ← command.encode mode allocation
  return (allocation, ⟨address, command.line, command.item.text, instruction⟩)

namespace Listing

def ofTokens (mode : Mode) (tokens : List Token) : Assembly Listing := do
  let layout ← Layout.ofTokens mode tokens
  let commands := tokens.filterMap Token.command?
  .note (.labelsDone commands.length layout.symbols.size)
  let (allocation, entries) ← Traced.mapAccum (Entry.ofCommand mode) (.start layout.symbols)
    commands.zipIdx
  .note (.encodingDone allocation.count)
  return ⟨entries⟩

end Listing

def assemble (mode : Mode) (source : String) : Assembly Listing :=
  Listing.ofTokens mode (Token.ofSource source)

end HackAssembler
