import HackAssembler.Text.Blank

/-!
# Statements

What one line of assembly text says, once its comment and the blanks around it are gone. A
statement declares a label or is an operation; an operation loads an address or computes. Every
text that is not empty is a statement: what is neither a label nor an address is a computation, and
whether it makes sense is decided later.
-/

set_option autoImplicit false

namespace HackAssembler

/-- A statement that becomes one instruction. -/
inductive Operation where
  /-- Loads an address, given by a numeral or by a name: `@operand`. -/
  | address (operand : String)
  /-- Computes, stores and jumps: `dest=comp;jump`. -/
  | compute (text : String)
  deriving Repr, DecidableEq

/-- What a line of assembly text says. -/
inductive Statement where
  /-- Names the place of the next instruction: `(name)`. -/
  | label (name : String)
  /-- Asks for one instruction. -/
  | operation (op : Operation)
  deriving Repr, DecidableEq

def Operation.text : Operation → String
  | address operand => "@" ++ operand
  | compute text => text

namespace Statement

def text : Statement → String
  | label name => "(" ++ name ++ ")"
  | operation op => op.text

/-- The part of a line before the first `//`. -/
def beforeComment : List Char → List Char
  | [] => []
  | '/' :: '/' :: _ => []
  | c :: rest => c :: beforeComment rest

/-- A line without its comment and without the blanks around it. -/
def strip (line : List Char) : List Char := Text.trim (beforeComment line)

/-- The name in `(name)`, which is neither empty nor spread over two lines. -/
def labelName? : List Char → Option (List Char)
  | '(' :: rest =>
    if rest.getLast? = some ')' ∧ rest.dropLast ≠ [] ∧ '\n' ∉ rest.dropLast then
      some rest.dropLast
    else none
  | _ => none

/-- Reads a text without comment and outer blanks; an empty text says nothing. -/
def ofStripped? (text : List Char) : Option Statement :=
  match labelName? text with
  | some name => some (label (String.ofList name))
  | none =>
    match text with
    | [] => none
    | '@' :: operand => some (operation (.address (String.ofList operand)))
    | c :: rest => some (operation (.compute (String.ofList (c :: rest))))

/-- Reads what a line says; a blank line and a line with a comment only say nothing. -/
def ofLine? (line : List Char) : Option Statement := ofStripped? (strip line)

/-- The operation that a statement asks for, if it is not a label. -/
def operation? : Statement → Option Operation
  | label _ => none
  | operation op => some op

end Statement

/-- Whether the text of a computation opens or closes like a label declaration. -/
def looksLikeLabel (text : String) : Bool :=
  text.toList.head? == some '(' || text.toList.getLast? == some ')'

end HackAssembler
