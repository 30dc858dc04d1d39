import HackAssembler.Proofs.Agreement
import HackAssembler.Proofs.Assembly
import Mathlib.Logic.Equiv.Basic

/-!
# Programs under a renaming of their symbols

A symbol means no more than that it is this symbol and no other. If the names in a program are
replaced by other names, distinct ones by distinct ones, then the program is assembled to the same
instructions, with the same faults and the same log up to the names in them. Only what has a
meaning of its own must stay as it is: the reserved names and the numerals, and in strict mode,
which looks at the characters of names, the missing name and the shape of a name.

The two assemblies are kept in step: a table of symbols finds for the new name what the other table
finds for the old one, and every operation on the tables keeps that up.
-/

set_option autoImplicit false

namespace HackAssembler

/-! ## Renamed programs -/

/-- The operation with another name for its symbol, if it has one. -/
def Operation.rename (rename : String → String) : Operation → Operation
  | address operand => address (rename operand)
  | compute text => compute text

def Statement.rename (rename : String → String) : Statement → Statement
  | label name => label (rename name)
  | operation op => operation (op.rename rename)

def Token.rename (rename : String → String) (token : Token) : Token :=
  ⟨token.line, token.item.rename rename⟩

def Command.rename (rename : String → String) (command : Command) : Command :=
  ⟨command.line, command.item.rename rename⟩

/-- The notice of the renamed program. -/
def Notice.rename (rename : String → String) : Notice → Notice
  | labelPlaced name address => labelPlaced (rename name) address
  | labelMoved line name previous address => labelMoved line (rename name) previous address
  | labelPastEnd line name address => labelPastEnd line (rename name) address
  | labelsDone instructions symbols => labelsDone instructions symbols
  | literalCut line literal address => literalCut line literal address
  | variablePlaced name address => variablePlaced (rename name) address
  | variablePastEnd line name => variablePastEnd line (rename name)
  | mnemonicReplaced line field mnemonic => mnemonicReplaced line field mnemonic
  | encodingDone count => encodingDone count

/-- What can be wrong with a line, without the texts and the addresses that it is wrong with. -/
inductive Defect.Kind where
  | unknownMnemonic
  | malformedLabel
  | duplicateLabel
  | addressOutOfRange
  | missingOperand
  deriving Repr, DecidableEq

def Defect.kind : Defect → Kind
  | unknownMnemonic .. => .unknownMnemonic
  | malformedLabel .. => .malformedLabel
  | duplicateLabel .. => .duplicateLabel
  | addressOutOfRange .. => .addressOutOfRange
  | missingOperand => .missingOperand

/-- The faults are of the same kind and on the same line. -/
def Fault.SameKind (fault other : Fault) : Prop :=
  other.line = fault.line ∧ other.item.kind = fault.item.kind

/-- The entries are for the same place, line and instruction. -/
def Entry.SameCode (entry other : Entry) : Prop :=
  other.address = entry.address ∧ other.line = entry.line ∧ other.instruction = entry.instruction

/-- The listings have the same code, entry by entry. -/
def Listing.SameCode (listing other : Listing) : Prop :=
  List.Forall₂ Entry.SameCode listing.entries other.entries

/-- A renaming that the assembly in some mode cannot tell: distinct names stay distinct, and what
has a meaning of its own stays as it is. -/
structure Mode.Overlooks (mode : Mode) (rename : String → String) : Prop where
  injective : Function.Injective rename
  reserved : ∀ name ∈ reservedNames.map Prod.fst, rename name = name
  numeral : ∀ text, Literal.isNumeral text = true → rename text = text
  empty : mode = .strict → rename "" = ""
  plain : mode = .strict → ∀ name, isPlainName (rename name) = isPlainName name

/-- Two runs that differ by a renaming only. -/
abbrev RunsAlike {α β : Type} (rename : String → String) (Related : α → β → Prop)
    (run : Assembly α) (other : Assembly β) : Prop :=
  run.Agrees (Notice.rename rename) Fault.SameKind Related other

variable {mode : Mode} {rename : String → String}

/-! ## Checks -/

theorem note_alike {notice notice' : Notice} (renamed : notice' = notice.rename rename) :
    RunsAlike rename (fun _ _ => True) (.note notice) (.note notice') := by
  subst renamed
  exact Traced.agrees_note notice

theorem Mode.demand_alike {holds holds' : Bool} (line : Nat) {defect defect' : Defect}
    (same : mode = .strict → holds' = holds) (kind : defect'.kind = defect.kind) :
    RunsAlike rename (fun _ _ => True) (mode.demand holds line defect)
      (mode.demand holds' line defect') := by
  cases mode with
  | lenient => exact Traced.agrees_pure trivial
  | strict =>
    rw [same rfl]
    cases holds with
    | true => exact Traced.agrees_pure trivial
    | false => exact Traced.agrees_fail ⟨rfl, kind⟩

theorem Mode.expect_alike (mode : Mode) (holds : Bool) (line : Nat) {defect defect' : Defect}
    {warning warning' : Notice} (kind : defect'.kind = defect.kind)
    (renamed : warning' = warning.rename rename) :
    RunsAlike rename (fun _ _ => True) (mode.expect holds line defect warning)
      (mode.expect holds line defect' warning') := by
  subst renamed
  cases holds with
  | true => exact Traced.agrees_pure trivial
  | false =>
    cases mode with
    | lenient => exact note_alike rfl
    | strict => exact Traced.agrees_fail ⟨rfl, kind⟩

/-! ## Names -/

/-- What stays as it is under an injective renaming is not the new name of anything else. -/
theorem holds_rename_iff (injective : Function.Injective rename) {Special : String → Prop}
    (kept : ∀ name, Special name → rename name = name) (name : String) :
    Special (rename name) ↔ Special name := by
  constructor
  · intro special
    have same : rename name = name := injective (kept _ special)
    rwa [same] at special
  · intro special
    rwa [kept name special]

theorem Mode.Overlooks.isNumeral_rename (overlooks : mode.Overlooks rename) (text : String) :
    Literal.isNumeral (rename text) = Literal.isNumeral text :=
  Bool.eq_iff_iff.2 (holds_rename_iff overlooks.injective overlooks.numeral text)

theorem Mode.Overlooks.isEmpty_rename (overlooks : mode.Overlooks rename) (strict : mode = .strict)
    (name : String) : (rename name).isEmpty = name.isEmpty := by
  rw [Bool.eq_iff_iff, String.isEmpty_iff, String.isEmpty_iff]
  have kept (name : String) (empty : name = "") : rename name = name := by
    rw [empty, overlooks.empty strict]
  exact holds_rename_iff overlooks.injective kept name

theorem Mode.Overlooks.lookup_reservedNames (overlooks : mode.Overlooks rename) (name : String) :
    reservedNames.lookup (rename name) = reservedNames.lookup name := by
  by_cases reserved : name ∈ reservedNames.map Prod.fst
  · rw [overlooks.reserved name reserved]
  · have absent := (holds_rename_iff overlooks.injective overlooks.reserved name).not.2 reserved
    have unknown (other : String) (absent : other ∉ reservedNames.map Prod.fst) :
        reservedNames.lookup other = none := by
      rw [List.lookup_eq_none_iff]
      intro entry found
      apply bne_iff_ne.2
      rintro rfl
      exact absent (List.mem_map_of_mem found)
    rw [unknown _ reserved, unknown _ absent]

/-! ## Symbol tables -/

namespace SymbolTable

variable {table table' : SymbolTable}

/-- The second table finds for a new name what the first one finds for the old name, and they hold
equally many names. -/
structure Renamed (rename : String → String) (table table' : SymbolTable) : Prop where
  lookup (name : String) : table'.lookup (rename name) = table.lookup name
  size : table'.size = table.size

theorem renamed_reserved (overlooks : mode.Overlooks rename) :
    Renamed rename reserved reserved where
  lookup name := by rw [lookup_reserved, lookup_reserved, overlooks.lookup_reservedNames]
  size := rfl

theorem Renamed.insert (renamed : Renamed rename table table')
    (injective : Function.Injective rename) (name : String) (address : Word) :
    Renamed rename (table.insert name address) (table'.insert (rename name) address) where
  lookup other := by
    rw [lookup_insert, lookup_insert, renamed.lookup]
    simp only [injective.eq_iff]
  size := by rw [size_insert, size_insert, renamed.lookup, renamed.size]

/-- Binding has the same outcome for the old name and for the new one. -/
theorem Renamed.bind (renamed : Renamed rename table table')
    (injective : Function.Injective rename) (name : String) (address : Word) :
    (∃ symbols symbols', table.bind name address = .ok symbols ∧
      table'.bind (rename name) address = .ok symbols' ∧ Renamed rename symbols symbols') ∨
    ∃ previous, table.bind name address = .error previous ∧
      table'.bind (rename name) address = .error previous := by
  unfold SymbolTable.bind
  rw [renamed.lookup]
  cases table.lookup name with
  | none => exact Or.inl ⟨_, _, rfl, rfl, renamed.insert injective name address⟩
  | some previous =>
    by_cases same : previous = address
    · exact Or.inl ⟨table, table', by simp [same], by simp [same], renamed⟩
    · exact Or.inr ⟨previous, by simp [same], by simp [same]⟩

end SymbolTable

/-! ## The first walk -/

namespace Layout

variable {layout layout' : Layout}

structure Renamed (rename : String → String) (layout layout' : Layout) : Prop where
  symbols : layout.symbols.Renamed rename layout'.symbols
  size : layout'.size = layout.size

theorem bind_alike (overlooks : mode.Overlooks rename) (renamed : layout.Renamed rename layout')
    (line : Nat) (name : String) (address : Word) :
    RunsAlike rename (Renamed rename) (layout.bind line name address)
      (layout'.bind line (rename name) address) := by
  unfold Layout.bind
  obtain ⟨symbols, symbols', bound, bound', kept⟩ | ⟨previous, refused, refused'⟩ :=
    renamed.symbols.bind overlooks.injective name address
  · rw [bound, bound']
    dsimp only
    refine Traced.agrees_bind (note_alike (by rfl)) fun _ _ _ => ?_
    exact Traced.agrees_pure ⟨kept, renamed.size⟩
  · rw [refused, refused']
    dsimp only
    refine Traced.agrees_bind (note_alike (by rfl)) fun _ _ _ => ?_
    exact Traced.agrees_pure
      ⟨renamed.symbols.insert overlooks.injective name address, renamed.size⟩

theorem declare_alike (overlooks : mode.Overlooks rename)
    (renamed : layout.Renamed rename layout') (line : Nat) (name : String) :
    RunsAlike rename (Renamed rename) (layout.declare mode line name)
      (layout'.declare mode line (rename name)) := by
  have bound := bind_alike overlooks renamed line name layout.size.toUInt16
  unfold declare
  rw [renamed.size, renamed.symbols.lookup]
  refine Traced.agrees_bind
    (Mode.demand_alike line (fun strict => overlooks.plain strict name) (by rfl)) fun _ _ _ => ?_
  refine Traced.agrees_bind (Mode.expect_alike mode _ line (by rfl) (by rfl)) fun _ _ _ => ?_
  cases layout.symbols.lookup name with
  | none => exact bound
  | some previous =>
    refine Traced.agrees_bind (Mode.demand_alike line (fun _ => rfl) (by rfl)) fun _ _ _ => ?_
    exact bound

theorem place_alike (overlooks : mode.Overlooks rename) (layout layout' : Layout) (token : Token)
    (renamed : layout.Renamed rename layout') :
    RunsAlike rename (Renamed rename) (layout.place mode token)
      (layout'.place mode (token.rename rename)) := by
  have extended : layout.extend.Renamed rename layout'.extend :=
    ⟨renamed.symbols, congrArg (· + 1) renamed.size⟩
  obtain ⟨line, statement⟩ := token
  match statement with
  | .label name => exact declare_alike overlooks renamed line name
  | .operation (.address operand) => exact Traced.agrees_pure extended
  | .operation (.compute text) =>
    refine Traced.agrees_bind (Mode.demand_alike line (fun _ => rfl) (by rfl)) fun _ _ _ => ?_
    exact Traced.agrees_pure extended

theorem ofTokens_alike (overlooks : mode.Overlooks rename) (tokens : List Token) :
    RunsAlike rename (Renamed rename) (ofTokens mode tokens)
      (ofTokens mode (tokens.map (Token.rename rename))) := by
  apply Traced.foldl_agrees (place_alike overlooks)
  exact ⟨SymbolTable.renamed_reserved overlooks, rfl⟩

end Layout

/-! ## The second walk -/

namespace Allocation

variable {allocation allocation' : Allocation}

structure Renamed (rename : String → String) (allocation allocation' : Allocation) : Prop where
  symbols : allocation.symbols.Renamed rename allocation'.symbols
  next : allocation'.next = allocation.next

theorem allocate_alike (overlooks : mode.Overlooks rename)
    (renamed : allocation.Renamed rename allocation') (line : Nat) (name : String) :
    RunsAlike rename (fun r r' => r.1.Renamed rename r'.1 ∧ r'.2 = r.2)
      (allocation.allocate mode line name) (allocation'.allocate mode line (rename name)) := by
  unfold allocate
  rw [renamed.next]
  refine Traced.agrees_bind (Mode.expect_alike mode _ line (by rfl) (by rfl)) fun _ _ _ => ?_
  obtain ⟨symbols, symbols', bound, bound', kept⟩ | ⟨previous, refused, refused'⟩ :=
    renamed.symbols.bind overlooks.injective name allocation.next
  · rw [bound, bound']
    dsimp only
    refine Traced.agrees_bind (note_alike (by rfl)) fun _ _ _ => ?_
    exact Traced.agrees_pure ⟨⟨kept, rfl⟩, rfl⟩
  · rw [refused, refused']
    exact Traced.agrees_pure ⟨renamed, rfl⟩

theorem resolve_alike (overlooks : mode.Overlooks rename)
    (renamed : allocation.Renamed rename allocation') (line : Nat) (operand : String) :
    RunsAlike rename (fun r r' => r.1.Renamed rename r'.1 ∧ r'.2 = r.2)
      (allocation.resolve mode line operand) (allocation'.resolve mode line (rename operand)) := by
  unfold resolve
  have named (strict : mode = .strict) : (!(rename operand).isEmpty) = !operand.isEmpty := by
    rw [overlooks.isEmpty_rename strict]
  refine Traced.agrees_bind (Mode.demand_alike line named (by rfl)) fun _ _ _ => ?_
  cases numeral : Literal.isNumeral operand with
  | true =>
    rw [overlooks.numeral operand numeral, Literal.ofText?_eq_some numeral]
    refine Traced.agrees_bind (Mode.expect_alike mode _ line (by rfl) (by rfl)) fun _ _ _ => ?_
    exact Traced.agrees_pure ⟨renamed, rfl⟩
  | false =>
    have numeral' : Literal.isNumeral (rename operand) = false := by
      rw [overlooks.isNumeral_rename, numeral]
    rw [Literal.ofText?_eq_none numeral, Literal.ofText?_eq_none numeral']
    dsimp only
    rw [renamed.symbols.lookup]
    cases allocation.symbols.lookup operand with
    | some address => exact Traced.agrees_pure ⟨renamed, rfl⟩
    | none => exact allocate_alike overlooks renamed line operand

end Allocation

theorem Field.encode_alike (mode : Mode) (line : Nat) (field : Field) (mnemonic : String) :
    RunsAlike rename (fun bits bits' => bits' = bits) (field.encode mode line mnemonic)
      (field.encode mode line mnemonic) := by
  unfold Field.encode
  cases field.bits? mnemonic with
  | some bits => exact Traced.agrees_pure rfl
  | none =>
    refine Traced.agrees_bind (Mode.expect_alike mode _ line (by rfl) (by rfl)) fun _ _ _ => ?_
    exact Traced.agrees_pure rfl

theorem Mnemonics.encode_alike (mode : Mode) (line : Nat) (mnemonics : Mnemonics) :
    RunsAlike rename (fun instruction instruction' => instruction' = instruction)
      (mnemonics.encode mode line) (mnemonics.encode mode line) := by
  unfold Mnemonics.encode
  apply Traced.agrees_bind (Field.encode_alike ..)
  rintro dest _ rfl
  apply Traced.agrees_bind (Field.encode_alike ..)
  rintro comp _ rfl
  apply Traced.agrees_bind (Field.encode_alike ..)
  rintro jump _ rfl
  exact Traced.agrees_pure rfl

theorem Command.encode_alike (overlooks : mode.Overlooks rename)
    {allocation allocation' : Allocation} (renamed : allocation.Renamed rename allocation')
    (command : Command) :
    RunsAlike rename (fun r r' => r.1.Renamed rename r'.1 ∧ r'.2 = r.2)
      (command.encode mode allocation) ((command.rename rename).encode mode allocation') := by
  obtain ⟨line, operation⟩ := command
  cases operation with
  | address operand =>
    apply Traced.agrees_bind (Allocation.resolve_alike overlooks renamed line operand)
    intro r r' resolved
    exact Traced.agrees_pure ⟨resolved.1, congrArg Instruction.address resolved.2⟩
  | compute text =>
    apply Traced.agrees_bind (Mnemonics.encode_alike ..)
    rintro instruction _ rfl
    exact Traced.agrees_pure ⟨renamed, rfl⟩

theorem Entry.ofCommand_alike (overlooks : mode.Overlooks rename)
    (allocation allocation' : Allocation) (placed : Command × Nat)
    (renamed : allocation.Renamed rename allocation') :
    RunsAlike rename (fun r r' => r.1.Renamed rename r'.1 ∧ r.2.SameCode r'.2)
      (Entry.ofCommand mode allocation placed)
      (Entry.ofCommand mode allocation' (placed.map (Command.rename rename) id)) := by
  apply Traced.agrees_bind (Command.encode_alike overlooks renamed placed.1)
  intro r r' encoded
  exact Traced.agrees_pure ⟨encoded.1, rfl, rfl, encoded.2⟩

/-! ## Programs -/

theorem Token.command?_rename (rename : String → String) (token : Token) :
    (token.rename rename).command? = token.command?.map (Command.rename rename) := by
  obtain ⟨line, statement⟩ := token
  cases statement with
  | label name => rfl
  | operation op => rfl

/-- The assembly of a renamed program does what the assembly of the program does. -/
theorem Listing.ofTokens_alike (overlooks : mode.Overlooks rename) (tokens : List Token) :
    RunsAlike rename Listing.SameCode (ofTokens mode tokens)
      (ofTokens mode (tokens.map (Token.rename rename))) := by
  have commands : (tokens.map (Token.rename rename)).filterMap Token.command? =
      (tokens.filterMap Token.command?).map (Command.rename rename) := by
    rw [List.filterMap_map, List.map_filterMap]
    exact congrArg (List.filterMap · tokens) (funext (Token.command?_rename rename))
  unfold ofTokens
  rw [commands]
  apply Traced.agrees_bind (Layout.ofTokens_alike overlooks tokens)
  intro layout layout' laid
  dsimp only
  rw [laid.symbols.size, List.length_map, List.zipIdx_map]
  refine Traced.agrees_bind (note_alike (by rfl)) fun _ _ _ => ?_
  have start : (Allocation.start layout.symbols).Renamed rename (.start layout'.symbols) :=
    ⟨laid.symbols, rfl⟩
  apply Traced.agrees_bind (Traced.mapAccum_agrees (Entry.ofCommand_alike overlooks) _ start)
  rintro ⟨allocation, entries⟩ ⟨allocation', entries'⟩ ⟨encoded, same⟩
  have count : allocation'.count = allocation.count := congrArg (· - variableBase) encoded.next
  dsimp only
  rw [count]
  refine Traced.agrees_bind (note_alike (by rfl)) fun _ _ _ => ?_
  exact Traced.agrees_pure same

/-- Lenient mode assembles every list of tokens. -/
theorem Listing.exists_ofTokens_lenient (tokens : List Token) :
    ∃ listing, (ofTokens .lenient tokens).outcome = .ok listing := by
  have strict_only (strict : Mode.lenient = .strict) :
      ∀ token ∈ tokens, token.item ≠ .label "" := by
    contradiction
  obtain ⟨listing, run, -⟩ := Listing.ofTokens_ends .lenient strict_only
  exact ⟨listing, by rw [run]⟩

/-- Symbols carry no meaning beyond being this symbol and no other. A renaming that leaves the
reserved names and the numerals alone changes neither the code nor, up to the names in it, the log
of a lenient assembly. The same holds of a strict assembly, which may also end in a fault of the
same kind on the same line, if the renaming respects the missing name and the plain names. -/
theorem Listing.ofTokens_rename {rename : String → String} (injective : Function.Injective rename)
    (reserved : ∀ name ∈ reservedNames.map Prod.fst, rename name = name)
    (numeral : ∀ text, Literal.isNumeral text = true → rename text = text) (tokens : List Token) :
    ((∃ listing renamed, (ofTokens .lenient tokens).outcome = .ok listing ∧
        (ofTokens .lenient (tokens.map (Token.rename rename))).outcome = .ok renamed ∧
        listing.SameCode renamed) ∧
      (ofTokens .lenient (tokens.map (Token.rename rename))).trail =
        (ofTokens .lenient tokens).trail.map (Notice.rename rename)) ∧
    (rename "" = "" → (∀ name, isPlainName (rename name) = isPlainName name) →
      Traced.OutcomesAgree Fault.SameKind SameCode (ofTokens .strict tokens).outcome
        (ofTokens .strict (tokens.map (Token.rename rename))).outcome ∧
      (ofTokens .strict (tokens.map (Token.rename rename))).trail =
        (ofTokens .strict tokens).trail.map (Notice.rename rename)) := by
  constructor
  · have overlooks : Mode.lenient.Overlooks rename :=
      ⟨injective, reserved, numeral, fun strict => by contradiction, fun strict => by contradiction⟩
    obtain ⟨trail, outcome⟩ := ofTokens_alike overlooks tokens
    obtain ⟨listing, assembled⟩ := exists_ofTokens_lenient tokens
    obtain ⟨renamed, assembled'⟩ := exists_ofTokens_lenient (tokens.map (Token.rename rename))
    rw [assembled, assembled'] at outcome
    cases outcome with
    | ok same => exact ⟨⟨listing, renamed, assembled, assembled', same⟩, trail⟩
  · intro empty plain
    have overlooks : Mode.strict.Overlooks rename :=
      ⟨injective, reserved, numeral, fun _ => empty, fun _ => plain⟩
    have agrees := ofTokens_alike overlooks tokens
    exact ⟨agrees.outcome, agrees.trail⟩

/-- A variable and a label, which is declared twice, exchange their names. -/
theorem Listing.ofTokens_rename_swap :
    (∃ listing renamed,
      (ofTokens .lenient [⟨1, .operation (.address "i")⟩, ⟨2, .label "LOOP"⟩,
        ⟨3, .operation (.address "LOOP")⟩, ⟨4, .label "LOOP"⟩]).outcome = .ok listing ∧
      (ofTokens .lenient [⟨1, .operation (.address "LOOP")⟩, ⟨2, .label "i"⟩,
        ⟨3, .operation (.address "i")⟩, ⟨4, .label "i"⟩]).outcome = .ok renamed ∧
      listing.SameCode renamed) ∧
    Traced.OutcomesAgree Fault.SameKind SameCode
      (ofTokens .strict [⟨1, .operation (.address "i")⟩, ⟨2, .label "LOOP"⟩,
        ⟨3, .operation (.address "LOOP")⟩, ⟨4, .label "LOOP"⟩]).outcome
      (ofTokens .strict [⟨1, .operation (.address "LOOP")⟩, ⟨2, .label "i"⟩,
        ⟨3, .operation (.address "i")⟩, ⟨4, .label "i"⟩]).outcome := by
  have kept {name : String} (first : name ≠ "i") (second : name ≠ "LOOP") :
      Equiv.swap "i" "LOOP" name = name :=
    Equiv.swap_apply_of_ne_of_ne first second
  have reserved : ∀ name ∈ reservedNames.map Prod.fst, Equiv.swap "i" "LOOP" name = name := by
    decide
  have numeral (text : String) (digits : Literal.isNumeral text = true) :
      Equiv.swap "i" "LOOP" text = text := by
    apply kept
    · rintro rfl
      contradiction
    · rintro rfl
      contradiction
  have plain (name : String) :
      isPlainName (Equiv.swap "i" "LOOP" name) = isPlainName name := by
    by_cases first : name = "i"
    · subst first
      decide
    by_cases second : name = "LOOP"
    · subst second
      decide
    rw [kept first second]
  have result := Listing.ofTokens_rename (Equiv.swap "i" "LOOP").injective reserved numeral
    [⟨1, .operation (.address "i")⟩, ⟨2, .label "LOOP"⟩, ⟨3, .operation (.address "LOOP")⟩,
      ⟨4, .label "LOOP"⟩]
  exact ⟨result.1.1, (result.2 (by decide) plain).1⟩

end HackAssembler
