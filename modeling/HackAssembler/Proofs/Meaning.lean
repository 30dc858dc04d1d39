import HackAssembler.Assembly
import HackAssembler.Proofs.History
import HackAssembler.Proofs.Numeral
import Mathlib.Data.Finset.Card
import Mathlib.Data.Finset.Dedup

/-!
# The meaning of a program

What the tokens of a program stand for, said without a symbol table and without a counter. A label
lies after the operations before its last declaration. An operand is a numeral, or a name that is
declared or reserved, or a variable; a variable lies behind the variables that come up before it.
From this follow the listing of a program (`listing`), the first fault that strict mode finds in it
(`fault?`) and all that there is to say about it (`notices`).

Everything here looks at lists of tokens and commands as a whole, or at one member and the members
before it. That an assembly in either mode amounts to the same is the subject of
`HackAssembler.Proofs.Layout`, `HackAssembler.Proofs.Allocation` and
`HackAssembler.Proofs.Assembly`.
-/

set_option autoImplicit false

namespace HackAssembler.Meaning

/-! ## Labels -/

/-- The operations of a program on their lines. -/
def commands (tokens : List Token) : List Command := tokens.filterMap Token.command?

/-- The names that are declared as labels, each with the number of operations before it. -/
def declarations (tokens : List Token) : List (String × Nat) :=
  (withPast tokens).filterMap fun (past, token) => match token.item with
    | .label name => some (name, (commands past).length)
    | .operation _ => none

/-- The number of operations before the last declaration of a name. -/
def labelPlace? (tokens : List Token) (name : String) : Option Nat :=
  (declarations tokens).reverse.lookup name

/-- What names stand for once the labels are placed. -/
abbrev Names := String → Option Word

/-- A declared name stands for the place of its label, any other reserved name for its own
address. -/
def known? (tokens : List Token) : Names := fun name =>
  ((labelPlace? tokens name).map UInt16.ofNat).or (reservedNames.lookup name)

/-- How many names have an address once the labels are placed. -/
def symbolCount (tokens : List Token) : Nat :=
  reservedNames.length +
    (((declarations tokens).map Prod.fst).filter fun name =>
      (reservedNames.lookup name).isNone).toFinset.card

/-! ## Operands -/

/-- The operands of the address instructions. -/
def operands (commands : List Command) : List String :=
  commands.filterMap fun command => match command.item with
    | .address operand => some operand
    | .compute _ => none

/-- A variable is an operand that is no numeral and has no address from elsewhere. -/
def isVariable (names : Names) (operand : String) : Bool :=
  !Literal.isNumeral operand && (names operand).isNone

/-- The variables among the operands. -/
def variableNames (names : Names) (commands : List Command) : Finset String :=
  ((operands commands).filter (isVariable names)).toFinset

/-- The variables that come up before an operand does. -/
def earlierVariables (names : Names) (commands : List Command) (operand : String) :
    Finset String :=
  (((operands commands).takeWhile (· ≠ operand)).filter (isVariable names)).toFinset

/-- The address of a variable. -/
def variableAddress (names : Names) (commands : List Command) (operand : String) : Word :=
  UInt16.ofNat (16 + (earlierVariables names commands operand).card)

/-- What an operand stands for. -/
def operandAddress (names : Names) (commands : List Command) (operand : String) : Word :=
  if Literal.isNumeral operand then UInt16.ofNat (Literal.value operand)
  else match names operand with
    | some address => address
    | none => variableAddress names commands operand

/-! ## The listing -/

/-- The bits of a mnemonic, and no bit for one that the field does not know. -/
def fieldBits (field : Field) (mnemonic : String) : Word := (field.bits? mnemonic).getD 0

/-- The instruction for the text of a computation. -/
def computation (text : String) : Instruction :=
  let mnemonics := Mnemonics.ofText text
  .compute (fieldBits .dest mnemonics.dest) (fieldBits .comp mnemonics.comp)
    (fieldBits .jump mnemonics.jump)

/-- The instruction for an operation of a program. -/
def instruction (names : Names) (commands : List Command) : Operation → Instruction
  | .address operand => .address (operandAddress names commands operand)
  | .compute text => computation text

/-- The entry for a command at its place of the program. -/
def entry (names : Names) (commands : List Command) (placed : Command × Nat) : Entry :=
  ⟨placed.2, placed.1.line, placed.1.item.text, instruction names commands placed.1.item⟩

/-- The listing of a program: one entry for every operation, in order. -/
def listing (tokens : List Token) : Listing :=
  ⟨(commands tokens).zipIdx.map (entry (known? tokens) (commands tokens))⟩

/-! ## Faults -/

/-- How many variables fit between the working registers and the end of the addresses. -/
def variableRoom : Nat := 32752

/-- Whether a name holds a blank or a parenthesis. -/
def isSpoiled (name : String) : Bool :=
  name.toList.any fun c => Text.isBlank c || c == '(' || c == ')'

/-- What is wrong with a label after the tokens before it. Its name must not be reserved, nor be
declared before. -/
def labelDefect? (past : List Token) (name : String) : Option Defect :=
  if isSpoiled name then some (.malformedLabel ("(" ++ name ++ ")"))
  else if 32767 < (commands past).length then
    some (.addressOutOfRange (toString (commands past).length))
  else (known? past name).map (.duplicateLabel name)

/-- What the walk over the tokens finds wrong with a token. -/
def tokenFault? (past : List Token) (token : Token) : Option Fault :=
  Option.map (⟨token.line, ·⟩) <| match token.item with
    | .label name => labelDefect? past name
    | .operation (.address _) => none
    | .operation (.compute text) =>
      if looksLikeLabel text then some (.malformedLabel text) else none

/-- What is wrong with the address that an operand stands for, after the commands before it: a
numeral is too large, or a new variable comes up when there is no room left. -/
def addressDefect? (names : Names) (past : List Command) (operand : String) : Option Defect :=
  if Literal.isNumeral operand then
    if 32767 < Literal.value operand then some (.addressOutOfRange operand) else none
  else if isVariable names operand ∧ operand ∉ operands past ∧
      variableRoom ≤ (variableNames names past).card then
    some (.addressOutOfRange operand)
  else none

/-- What is wrong with an operand after the commands before it. -/
def operandDefect? (names : Names) (past : List Command) (operand : String) : Option Defect :=
  if operand = "" then some .missingOperand else addressDefect? names past operand

/-- The parts of a computation that their fields do not know. -/
def unknownMnemonics (text : String) : List (Field × String) :=
  let mnemonics := Mnemonics.ofText text
  [(Field.dest, mnemonics.dest), (Field.comp, mnemonics.comp), (Field.jump, mnemonics.jump)].filter
    fun part => (part.1.bits? part.2).isNone

/-- What the walk over the commands finds wrong with a command. -/
def commandFault? (names : Names) (past : List Command) (command : Command) : Option Fault :=
  Option.map (⟨command.line, ·⟩) <| match command.item with
    | .address operand => operandDefect? names past operand
    | .compute text =>
      (unknownMnemonics text).head?.map fun unknown => .unknownMnemonic unknown.1 unknown.2

/-- The fault for which strict mode rejects a program: a fault of the first walk goes before every
fault of the second one. -/
def fault? (tokens : List Token) : Option Fault :=
  ((withPast tokens).findSome? fun p => tokenFault? p.1 p.2).or
    ((withPast (commands tokens)).findSome? fun p => commandFault? (known? tokens) p.1 p.2)

/-! ## Notices -/

/-- How a label gets its address: a name that had another one is moved. -/
def placement (past : List Token) (line : Nat) (name : String) : Notice :=
  let address := UInt16.ofNat (commands past).length
  match known? past name with
  | none => .labelPlaced name address
  | some previous =>
    if previous = address then .labelPlaced name address
    else .labelMoved line name previous address

/-- What there is to say about a label after the tokens before it. -/
def labelNotices (past : List Token) (line : Nat) (name : String) : List Notice :=
  (if 32767 < (commands past).length then [.labelPastEnd line name (commands past).length]
    else []) ++ [placement past line name]

/-- What there is to say about a token. -/
def tokenNotices (past : List Token) (token : Token) : List Notice :=
  match token.item with
  | .label name => labelNotices past token.line name
  | .operation _ => []

/-- What there is to say about an operand after the commands before it. -/
def operandNotices (names : Names) (past : List Command) (line : Nat) (operand : String) :
    List Notice :=
  if Literal.isNumeral operand then
    if 32767 < Literal.value operand then
      [.literalCut line operand (UInt16.ofNat (Literal.value operand))]
    else []
  else if isVariable names operand ∧ operand ∉ operands past then
    (if maxAddress < variableAddress names past operand then [.variablePastEnd line operand]
      else []) ++ [.variablePlaced operand (variableAddress names past operand)]
  else []

/-- What there is to say about a command. -/
def commandNotices (names : Names) (past : List Command) (command : Command) : List Notice :=
  match command.item with
  | .address operand => operandNotices names past command.line operand
  | .compute text => (unknownMnemonics text).map fun unknown =>
    .mnemonicReplaced command.line unknown.1 unknown.2

/-- All that there is to say about a program. -/
def notices (tokens : List Token) : List Notice :=
  (withPast tokens).flatMap (fun p => tokenNotices p.1 p.2) ++
    .labelsDone (commands tokens).length (symbolCount tokens) ::
    (withPast (commands tokens)).flatMap (fun p => commandNotices (known? tokens) p.1 p.2) ++
    [.encodingDone (UInt16.ofNat (variableNames (known? tokens) (commands tokens)).card)]

end HackAssembler.Meaning
