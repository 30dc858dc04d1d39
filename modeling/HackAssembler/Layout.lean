import HackAssembler.Mode
import HackAssembler.Operand
import HackAssembler.SymbolTable

/-!
# Layout

Where the labels of a program lie. The tokens are walked once, counting the operations; a label
stands for the number of operations before it, cut to sixteen bits. In lenient mode a later label
of the same name, and a label with a reserved name, takes the name over.
-/

set_option autoImplicit false

namespace HackAssembler

/-- The names placed so far, and the number of operations so far. -/
structure Layout where
  symbols : SymbolTable
  size : Nat

namespace Layout

/-- Before the first token only the reserved names have a place. -/
def start : Layout := ⟨.reserved, 0⟩

/-- Makes room for one operation. -/
def extend (layout : Layout) : Layout := { layout with size := layout.size + 1 }

/-- Gives a label the address `address`, in place of what its name stood for. -/
def bind (layout : Layout) (line : Nat) (name : String) (address : Word) : Assembly Layout :=
  match layout.symbols.bind name address with
  | .ok symbols => do
    .note (.labelPlaced name address)
    return { layout with symbols }
  | .error previous => do
    .note (.labelMoved line name previous address)
    return { layout with symbols := (layout.symbols.rebind name address).2 }

/-- Declares a label in front of the next operation. -/
def declare (mode : Mode) (layout : Layout) (line : Nat) (name : String) : Assembly Layout := do
  mode.demand (isPlainName name) line (.malformedLabel (Statement.label name).text)
  mode.expect (decide (layout.size ≤ maxAddress.toNat)) line
    (.addressOutOfRange (toString layout.size)) (.labelPastEnd line name layout.size)
  match layout.symbols.lookup name with
  | some previous => mode.demand false line (.duplicateLabel name previous)
  | none => pure ()
  layout.bind line name layout.size.toUInt16

/-- Takes one token into the layout. -/
def place (mode : Mode) (layout : Layout) (token : Token) : Assembly Layout :=
  match token.item with
  | .label name => layout.declare mode token.line name
  | .operation (.address _) => pure layout.extend
  | .operation (.compute text) => do
    mode.demand (!looksLikeLabel text) token.line (.malformedLabel text)
    return layout.extend

def ofTokens (mode : Mode) (tokens : List Token) : Assembly Layout :=
  Traced.foldl (place mode) start tokens

end Layout

end HackAssembler
