import HackAssembler.Statement
import HackAssembler.Text.Line

/-!
# Tokens

A token is a statement with the number of the line it stands on; lines count from one. The tokens
of a source keep the order of its lines, and lines that say nothing leave no token.
-/

set_option autoImplicit false

namespace HackAssembler

/-- Something that stands on a line of the source. -/
structure Located (α : Type) where
  line : Nat
  item : α
  deriving Repr, DecidableEq

abbrev Token := Located Statement

abbrev Command := Located Operation

namespace Token

def ofLine? (number : Nat) (line : List Char) : Option Token :=
  (Statement.ofLine? line).map fun statement => ⟨number, statement⟩

def ofSource (source : String) : List Token :=
  ((Text.lines source.toList).zipIdx 1).filterMap fun (line, number) => ofLine? number line

/-- The command that a token gives, if it is not a label. -/
def command? (token : Token) : Option Command :=
  token.item.operation?.map fun op => ⟨token.line, op⟩

end Token

end HackAssembler
