import HackAssembler.Proofs.Assembly

/-!
# The table in the course of the second walk

Once the labels are placed, the table only grows. At every step of the second walk it holds what the
first walk left, and beside it the variables among the operands so far, each with the address that
the counter showed when the variable came up. The counter stands behind so many variables, cut to
sixteen bits. A name is given an address only where the table does not find it, so the table never
refuses it.

A step of the walk is where the walk over the commands before it ends (`walk_append`). What an
allocation holds there is known from the run of these commands (`describes_of_walk`); two steps are
compared by what both of them hold (`Describes.lookup_mono`, `Describes.lookup_of_free`).
-/

set_option autoImplicit false

namespace HackAssembler

open Meaning

namespace SymbolTable

/-- The names that have an address. -/
def names (table : SymbolTable) : Finset String := table.addresses.keys.toFinset

theorem mem_names {table : SymbolTable} {name : String} :
    name ∈ table.names ↔ (table.lookup name).isSome := by
  rw [names, List.mem_toFinset, Std.TreeMap.mem_keys, ← contains_eq_isSome_lookup, contains,
    Std.TreeMap.mem_iff_contains]

end SymbolTable

namespace Allocation

variable {allocation earlier later : Allocation} {mode : Mode} {symbols : SymbolTable}
  {names : Names} {past before rest : List Command} {entries : List Entry} {line : Nat}
  {name operand : String} {address : Word}

/-! ## Two steps of a walk -/

/-- What a step finds under a name, every later step finds there. -/
theorem Describes.lookup_mono (first : earlier.Describes names before)
    (last : later.Describes names (before ++ rest))
    (held : earlier.symbols.lookup name = some address) :
    later.symbols.lookup name = some address := by
  rw [first.lookup name, Option.or_eq_some_iff] at held
  rw [last.lookup name]
  rcases held with known | ⟨unknown, held⟩
  · rw [known, Option.some_or]
  · split at held
    · rename_i met
      have found : name ∈ variableNames names (before ++ rest) := by
        rw [mem_variableNames, operands_append] at *
        exact ⟨List.mem_append_left _ met.1, met.2⟩
      rw [unknown, Option.none_or, if_pos found, variableAddress_append_of_mem met, held]
    · contradiction

/-- The table does not find an operand exactly if it is a variable that has not come up yet. -/
theorem Describes.lookup_eq_none_iff (describes : allocation.Describes names past)
    (symbol : Literal.isNumeral operand = false) :
    allocation.symbols.lookup operand = none ↔
      isVariable names operand = true ∧ operand ∉ operands past := by
  rw [describes.lookup operand, Option.or_eq_none_iff]
  by_cases met : operand ∈ operands past <;>
    simp [mem_variableNames, isVariable_iff, met, symbol]

/-- What is not found at a step gets the address that the counter shows there, and keeps it. -/
theorem Describes.lookup_of_free (first : earlier.Describes names before)
    (last : later.Describes names (before ++ ⟨line, .address operand⟩ :: rest))
    (symbol : Literal.isNumeral operand = false)
    (free : earlier.symbols.lookup operand = none) :
    later.symbols.lookup operand = some earlier.next := by
  obtain ⟨new, fresh⟩ := (first.lookup_eq_none_iff symbol).1 free
  have comesUp : operand ∈ operands (before ++ ⟨line, .address operand⟩ :: rest) :=
    mem_operands_iff.2 ⟨line, by simp⟩
  rw [last.lookup operand, (isVariable_iff.1 new).2, Option.none_or,
    if_pos (mem_variableNames.2 ⟨comesUp, new⟩), variableAddress, earlierVariables_append_cons,
    next_eq_variableAddress first fresh, variableAddress]

/-! ## The names in the table -/

theorem Describes.names_eq (describes : allocation.Describes symbols.lookup past) :
    allocation.symbols.names = symbols.names ∪ variableNames symbols.lookup past := by
  ext name
  rw [Finset.mem_union, SymbolTable.mem_names, SymbolTable.mem_names, describes.lookup name]
  by_cases found : name ∈ variableNames symbols.lookup past <;> simp [found]

/-- The names that the walk has added are the variables so far. -/
theorem Describes.names_sdiff (describes : allocation.Describes symbols.lookup past) :
    allocation.symbols.names \ symbols.names = variableNames symbols.lookup past := by
  have apart : Disjoint symbols.names (variableNames symbols.lookup past) := by
    rw [Finset.disjoint_left]
    intro name bound new
    have unknown := (isVariable_iff.1 (mem_variableNames.1 new).2).2
    rw [SymbolTable.mem_names, unknown] at bound
    contradiction
  rw [describes.names_eq, Finset.union_sdiff_cancel_left apart]

/-! ## The steps of a walk -/

/-- The second walk over some commands, from the table that the first walk left. -/
def walk (mode : Mode) (symbols : SymbolTable) (commands : List Command) :
    Assembly (Allocation × List Entry) :=
  Traced.mapAccum (Entry.ofCommand mode) (.start symbols) commands.zipIdx

/-- A walk goes on from where the walk over its first commands ends. -/
theorem walk_append (mode : Mode) (symbols : SymbolTable) (before rest : List Command) :
    walk mode symbols (before ++ rest) = do
      let (allocation, entries) ← walk mode symbols before
      let (last, more) ←
        Traced.mapAccum (Entry.ofCommand mode) allocation (rest.zipIdx before.length)
      return (last, entries ++ more) := by
  rw [walk, List.zipIdx_append, Traced.mapAccum_append, Nat.zero_add]
  rfl

theorem exists_walk_of_append
    (reached : (walk mode symbols (before ++ rest)).outcome = .ok (allocation, entries)) :
    ∃ earlier entries, (walk mode symbols before).outcome = .ok (earlier, entries) := by
  rw [walk_append, Traced.bind_eq_ok_iff] at reached
  obtain ⟨⟨earlier, entries⟩, reached, -⟩ := reached
  exact ⟨earlier, entries, reached⟩

theorem describes_of_walk
    (reached : (walk mode symbols past).outcome = .ok (allocation, entries)) :
    allocation.Describes symbols.lookup past :=
  ((commands_ends mode (fun _ => rfl) past).of_ok reached).2.2.1

/-- What an allocation holds after some commands of the second walk, which started from a table. -/
structure Extends (allocation : Allocation) (mode : Mode) (symbols : SymbolTable)
    (past : List Command) : Prop where
  /-- What had an address at the start has it still. -/
  kept : ∀ name address, symbols.lookup name = some address →
    allocation.symbols.lookup name = some address
  /-- What had an address at an earlier step has it still, and the operand that was not found there
  has the address that the counter showed. -/
  since : ∀ before command, (before, command) ∈ withPast past →
    ∃ earlier entries, (walk mode symbols before).outcome = .ok (earlier, entries) ∧
      (∀ name address, earlier.symbols.lookup name = some address →
        allocation.symbols.lookup name = some address) ∧
      ∀ operand, command.item = .address operand → Literal.isNumeral operand = false →
        earlier.symbols.lookup operand = none →
          allocation.symbols.lookup operand = some earlier.next
  /-- The names in the table are those of the start and the variables so far. -/
  names : allocation.symbols.names = symbols.names ∪ variableNames symbols.lookup past
  /-- The counter tells how many names were added. -/
  next : allocation.next.toNat = (16 + (allocation.symbols.names \ symbols.names).card) % 65536
  /-- An address is asked of the counter only for a variable that has not come up yet. -/
  free : ∀ operand, Literal.isNumeral operand = false →
    (allocation.symbols.lookup operand = none ↔
      symbols.lookup operand = none ∧ operand ∉ operands past)
  /-- The table takes in every name for which an address is asked of the counter. -/
  accepts : ∀ operand, Literal.isNumeral operand = false →
    allocation.symbols.lookup operand = none →
      allocation.symbols.bind operand allocation.next =
        .ok (allocation.symbols.insert operand allocation.next)

theorem extends_of_walk
    (reached : (walk mode symbols past).outcome = .ok (allocation, entries)) :
    allocation.Extends mode symbols past where
  kept _ _ known := (describes_start fun _ => rfl).lookup_mono (describes_of_walk reached) known
  since before command found := by
    obtain ⟨rest, rfl⟩ := mem_withPast.1 found
    obtain ⟨earlier, entries, before⟩ := exists_walk_of_append reached
    have first := describes_of_walk before
    have last := describes_of_walk reached
    refine ⟨earlier, entries, before, fun _ _ => first.lookup_mono last, ?_⟩
    obtain ⟨line, operation⟩ := command
    rintro operand rfl symbol free
    exact first.lookup_of_free last symbol free
  names := (describes_of_walk reached).names_eq
  next := by
    have describes := describes_of_walk reached
    rw [describes.names_sdiff, describes.next, UInt16.toNat_ofNat']
  free operand symbol := by
    rw [(describes_of_walk reached).lookup_eq_none_iff symbol, isVariable_iff,
      and_iff_right symbol]
  accepts operand _ free := by rw [SymbolTable.bind, free]

end Allocation

/-! ## Programs -/

theorem Layout.of_placed {mode : Mode} {source : String} {layout : Layout}
    (placed : (Layout.ofTokens mode (Token.ofSource source)).outcome = .ok layout) :
    mode.stops ((withPast (Token.ofSource source)).findSome? fun p => tokenFault? p.1 p.2) = none ∧
      layout.Describes (Token.ofSource source) := by
  obtain ⟨sound, -, describes⟩ :=
    (Layout.ofTokens_ends mode fun _ _ found => Token.item_ne_label_empty found).of_ok placed
  exact ⟨sound, describes⟩

/-- Every step of the second walk over a source, in either mode, is reached with an allocation that
extends the table of the first walk, unless strict mode is stopped before by the fault of the
source. -/
theorem second_walk_extends_table {mode : Mode} {source : String} {layout : Layout}
    (placed : (Layout.ofTokens mode (Token.ofSource source)).outcome = .ok layout)
    {past : List Command} (front : past <+: commands (Token.ofSource source)) :
    match (Allocation.walk mode layout.symbols past).outcome with
    | .ok (allocation, _) => allocation.Extends mode layout.symbols past
    | .error fault => mode = .strict ∧ fault? (Token.ofSource source) = some fault := by
  obtain ⟨sound, describes⟩ := Layout.of_placed placed
  cases ended : (Allocation.walk mode layout.symbols past).outcome with
  | ok result => exact Allocation.extends_of_walk ended
  | error fault =>
    have stopped := (commands_ends mode (fun _ => rfl) past).of_error ended
    cases mode with
    | lenient => contradiction
    | strict =>
      -- The commands of this walk come first, so its fault is the first one of all commands.
      obtain ⟨rest, split⟩ := front
      have known : layout.symbols.lookup = known? (Token.ofSource source) :=
        funext describes.lookup
      rw [Mode.stops_strict] at sound stopped
      rw [known] at stopped
      refine ⟨rfl, ?_⟩
      rw [fault?, sound, Option.none_or, ← split, withPast_append, List.findSome?_append, stopped,
        Option.some_or]

/-- A label, a variable that comes up twice and one without a name, at the step for `@j`. -/
theorem second_walk_extends_table_unnamed_variable :
    let tokens := Token.ofSource "@i\n@7\n(TOP)\n@TOP\n@\n@i\n@j"
    let past := (commands tokens).take 5
    ∃ layout allocation entries,
      (Layout.ofTokens .lenient tokens).outcome = .ok layout ∧
      (Allocation.walk .lenient layout.symbols past).outcome = .ok (allocation, entries) ∧
      allocation.Extends .lenient layout.symbols past ∧ allocation.next = 18 ∧
      ["TOP", "i", "", "j"].map allocation.symbols.lookup = [some 2, some 16, some 17, none] := by
  intro tokens past
  have shown : (do
      let layout ← Layout.ofTokens .lenient tokens
      let (allocation, _) ← Allocation.walk .lenient layout.symbols past
      return (allocation.next, ["TOP", "i", "", "j"].map allocation.symbols.lookup) :
        Assembly (Word × List (Option Word))).outcome =
          .ok (18, [some 2, some 16, some 17, none]) := by
    decide +kernel
  obtain ⟨layout, placed, shown⟩ := Traced.bind_eq_ok_iff.1 shown
  obtain ⟨⟨allocation, entries⟩, reached, shown⟩ := Traced.bind_eq_ok_iff.1 shown
  obtain ⟨next, held⟩ := Prod.mk.inj (Except.ok.inj shown)
  have extended := second_walk_extends_table placed (List.take_prefix 5 _)
  rw [reached] at extended
  exact ⟨layout, allocation, entries, placed, reached, extended, next, held⟩

end HackAssembler
