import HackAssembler.Proofs.Meaning
import HackAssembler.Proofs.Mode

/-!
# The first walk places the labels

A layout describes the tokens it has taken in: it counts their operations, and its table finds for
every name what the name stands for after these tokens. Every step of the walk keeps that up in
either mode (`place_ends`), and so the layout of a whole program describes it (`ofTokens_ends`); in
strict mode the walk is stopped by the first fault that the meaning of the program has.
-/

set_option autoImplicit false

namespace HackAssembler

namespace Meaning

variable {past : List Token} {line : Nat} {name : String} {op : Operation}

@[simp] theorem commands_concat_label :
    commands (past ++ [⟨line, .label name⟩]) = commands past := by
  simp [commands, Token.command?, Statement.operation?]

@[simp] theorem commands_concat_operation :
    commands (past ++ [⟨line, .operation op⟩]) = commands past ++ [⟨line, op⟩] := by
  simp [commands, Token.command?, Statement.operation?]

theorem declarations_concat_label :
    declarations (past ++ [⟨line, .label name⟩]) =
      declarations past ++ [(name, (commands past).length)] := by
  simp [declarations]

theorem declarations_concat_operation :
    declarations (past ++ [⟨line, .operation op⟩]) = declarations past := by
  simp [declarations]

theorem mem_commands_iff {command : Command} :
    command ∈ commands past ↔ ⟨command.line, .operation command.item⟩ ∈ past := by
  simp only [commands, List.mem_filterMap]
  constructor
  · rintro ⟨⟨line, statement⟩, found, read⟩
    cases statement with
    | label name => contradiction
    | operation op =>
      obtain rfl : ⟨line, op⟩ = command := Option.some.inj read
      exact found
  · intro found
    exact ⟨_, found, rfl⟩

theorem map_item_commands (tokens : List Token) :
    (commands tokens).map Located.item =
      (tokens.map Located.item).filterMap Statement.operation? := by
  simp [commands, Token.command?, List.map_filterMap, List.filterMap_map, Function.comp_def]

theorem exists_past_of_mem_declarations {place : Nat} (found : (name, place) ∈ declarations past) :
    ∃ before line, (before, ⟨line, .label name⟩) ∈ withPast past ∧
      place = (commands before).length := by
  obtain ⟨⟨before, line, statement⟩, member, declares⟩ := List.mem_filterMap.1 found
  cases statement with
  | label declared =>
    obtain ⟨rfl, rfl⟩ : declared = name ∧ (commands before).length = place := by
      simpa using declares
    exact ⟨before, line, member, rfl⟩
  | operation op => simp at declares

/-- The names that are declared are those of the labels. -/
theorem mem_declared_iff :
    name ∈ (declarations past).map Prod.fst ↔ ∃ line, ⟨line, .label name⟩ ∈ past := by
  constructor
  · intro declared
    obtain ⟨⟨_, place⟩, found, rfl⟩ := List.mem_map.1 declared
    obtain ⟨before, line, inside, -⟩ := exists_past_of_mem_declarations found
    exact ⟨line, mem_of_mem_withPast inside⟩
  · rintro ⟨line, found⟩
    obtain ⟨before, inside⟩ := exists_past_of_mem found
    have declared : (name, (commands before).length) ∈ declarations past :=
      List.mem_filterMap.2 ⟨_, inside, rfl⟩
    exact List.mem_map_of_mem declared

theorem labelPlace?_eq_none_iff (past : List Token) (name : String) :
    labelPlace? past name = none ↔ name ∉ (declarations past).map Prod.fst := by
  simp only [labelPlace?, List.lookup_eq_none_iff, List.mem_reverse, List.mem_map, not_exists,
    not_and]
  constructor
  · rintro absent declaration found rfl
    simpa using absent declaration found
  · intro absent declaration found
    exact bne_iff_ne.2 fun same => absent declaration found same.symm

theorem labelPlace?_concat_label (other : String) :
    labelPlace? (past ++ [⟨line, .label name⟩]) other =
      if name = other then some (commands past).length else labelPlace? past other := by
  simp only [labelPlace?, declarations_concat_label, List.reverse_append, List.reverse_cons,
    List.reverse_nil, List.nil_append, List.singleton_append, List.lookup_cons]
  by_cases same : name = other
  · simp [same]
  · simp [same, beq_eq_false_iff_ne.2 (Ne.symm same)]

theorem known?_concat_label (other : String) :
    known? (past ++ [⟨line, .label name⟩]) other =
      if name = other then some (UInt16.ofNat (commands past).length)
      else known? past other := by
  rw [known?, labelPlace?_concat_label]
  split
  · rfl
  · rw [known?]

theorem known?_concat_operation (other : String) :
    known? (past ++ [⟨line, .operation op⟩]) other = known? past other := by
  simp only [known?, labelPlace?, declarations_concat_operation]

theorem isSome_known?_iff (past : List Token) (name : String) :
    (known? past name).isSome ↔
      (reservedNames.lookup name).isSome ∨ name ∈ (declarations past).map Prod.fst := by
  have placed := (labelPlace?_eq_none_iff past name).not
  rw [not_not, ← ne_eq, ← Option.isSome_iff_ne_none] at placed
  rw [← placed, known?, Option.isSome_or, Bool.or_eq_true, Option.isSome_map, or_comm]

/-- A label adds a name to the table unless the name has an address already. -/
theorem symbolCount_concat_label :
    symbolCount (past ++ [⟨line, .label name⟩]) =
      if (known? past name).isSome then symbolCount past else symbolCount past + 1 := by
  have known := isSome_known?_iff past name
  simp only [symbolCount, declarations_concat_label, List.map_append, List.map_cons, List.map_nil,
    List.filter_append, List.toFinset_append]
  generalize (declarations past).map Prod.fst = names at known ⊢
  cases reserved : reservedNames.lookup name with
  | some address => simp [known, reserved]
  | none =>
    have added : [name].filter (fun n => (reservedNames.lookup n).isNone) = [name] := by
      simp [reserved]
    rw [added, List.toFinset_cons, List.toFinset_nil, Finset.union_insert, Finset.union_empty,
      Finset.card_insert_eq_ite]
    by_cases declared : name ∈ names <;> simp [known, reserved, declared, Nat.add_assoc]

theorem symbolCount_concat_operation :
    symbolCount (past ++ [⟨line, .operation op⟩]) = symbolCount past := by
  simp only [symbolCount, declarations_concat_operation]

end Meaning

namespace Layout

open Meaning

variable {layout : Layout} {past : List Token}

/-- A layout counts the operations of the tokens that it has taken in, and finds for every name
what the name stands for after them. -/
structure Describes (layout : Layout) (past : List Token) : Prop where
  size : layout.size = (commands past).length
  lookup (name : String) : layout.symbols.lookup name = known? past name
  symbolCount : layout.symbols.size = symbolCount past

theorem describes_start : start.Describes [] where
  size := rfl
  lookup name := SymbolTable.lookup_reserved name
  symbolCount := SymbolTable.size_reserved

theorem Describes.extend (describes : layout.Describes past) (line : Nat) (op : Operation) :
    layout.extend.Describes (past ++ [⟨line, .operation op⟩]) where
  size := by simp [Layout.extend, describes.size]
  lookup name := by rw [known?_concat_operation, ← describes.lookup name, Layout.extend]
  symbolCount := by rw [symbolCount_concat_operation, ← describes.symbolCount, Layout.extend]

/-- A table that differs by the address of the label takes the label in. -/
theorem Describes.label (describes : layout.Describes past) {symbols : SymbolTable}
    (line : Nat) (name : String)
    (lookup : ∀ other, symbols.lookup other =
      if name = other then some (UInt16.ofNat (commands past).length)
      else layout.symbols.lookup other)
    (size : symbols.size =
      if (layout.symbols.lookup name).isSome then layout.symbols.size
      else layout.symbols.size + 1) :
    ({ layout with symbols } : Layout).Describes (past ++ [⟨line, .label name⟩]) where
  size := by rw [commands_concat_label, ← describes.size]
  lookup other := by rw [known?_concat_label, ← describes.lookup other, ← lookup other]
  symbolCount := by
    rw [symbolCount_concat_label, ← describes.lookup name, ← describes.symbolCount, ← size]

/-- A label is bound to the number of operations before it, whatever its name stood for. -/
theorem bind_ends (describes : layout.Describes past) (line : Nat) (name : String) :
    (layout.bind line name layout.size.toUInt16).Ends none [placement past line name]
      (·.Describes (past ++ [⟨line, .label name⟩])) := by
  have found := describes.lookup name
  have inserted := describes.label line name
    (layout.symbols.lookup_insert name · (UInt16.ofNat (commands past).length))
    (layout.symbols.size_insert name _)
  rw [describes.size, Nat.toUInt16_eq, placement]
  generalize place : UInt16.ofNat (commands past).length = address at inserted ⊢
  cases known : known? past name with
  | none =>
    refine ⟨_, ?_, inserted⟩
    simp [Layout.bind, SymbolTable.bind, found, known]
    rfl
  | some previous =>
    -- A name that has this very address is left as it is.
    by_cases same : previous = address
    · refine ⟨layout, ?_, describes.label line name (fun other => ?_) ?_⟩
      · simp [Layout.bind, SymbolTable.bind, found, known, same]
        rfl
      · by_cases this : name = other
        · rw [if_pos this, ← this, found, known, same, place]
        · rw [if_neg this]
      · simp [found, known]
    · refine ⟨_, ?_, inserted⟩
      simp [Layout.bind, SymbolTable.bind, SymbolTable.rebind, found, known, same]
      rfl

theorem isPlainName_eq {name : String} (named : name ≠ "") :
    isPlainName name = !isSpoiled name := by
  have filled : name.toList.isEmpty = false := by simpa using named
  have clean (c : Char) : (c != '(' && c != ')' && !Text.isBlank c) =
      !(Text.isBlank c || c == '(' || c == ')') := by
    cases Text.isBlank c <;> simp [bne]
  simp only [isPlainName, isSpoiled, filled, clean, Bool.not_false, Bool.true_and,
    List.not_any_eq_all_not]

/-- A label whose name has an address already is a defect, and is bound all the same in lenient
mode. -/
theorem bind_once_ends (mode : Mode) (describes : layout.Describes past) (line : Nat)
    (name : String) :
    Traced.Ends
      (match layout.symbols.lookup name with
        | some previous => do
          mode.demand false line (.duplicateLabel name previous)
          layout.bind line name layout.size.toUInt16
        | none => layout.bind line name layout.size.toUInt16)
      (mode.stops ((known? past name).map fun previous => ⟨line, .duplicateLabel name previous⟩))
      [placement past line name] (·.Describes (past ++ [⟨line, .label name⟩])) := by
  have placed := bind_ends describes line name
  rw [describes.lookup name]
  cases known? past name with
  | none => exact placed.of_eq mode.stops_none.symm rfl
  | some previous =>
    refine (Traced.ends_bind (mode.demand_ends ..) fun _ _ _ => placed).of_eq ?_ rfl
    rw [Option.or_none, Option.map_some]
    rfl

theorem declare_ends (mode : Mode) (describes : layout.Describes past) (line : Nat)
    {name : String} (named : mode = .strict → name ≠ "") :
    (layout.declare mode line name).Ends (mode.stops (tokenFault? past ⟨line, .label name⟩))
      (labelNotices past line name) (·.Describes (past ++ [⟨line, .label name⟩])) := by
  have fits : decide (layout.size ≤ maxAddress.toNat) =
      !decide (32767 < (commands past).length) := by
    rw [describes.size, toNat_maxAddress, ← decide_not, decide_eq_decide, Nat.not_lt]
  refine (Traced.ends_bind (mode.demand_ends ..) fun _ _ _ =>
    Traced.ends_bind (mode.expect_ends ..) fun _ _ _ =>
    bind_once_ends mode describes line name).of_eq ?_ ?_
  · cases mode with
    | lenient => rfl
    | strict =>
      rw [Mode.stops_strict, Mode.stops_strict, Mode.stops_strict, isPlainName_eq (named rfl), fits,
        describes.size]
      simp only [Mode.stops_strict, tokenFault?, labelDefect?]
      by_cases far : 32767 < (commands past).length <;> cases isSpoiled name <;> simp [far] <;> rfl
  · rw [fits, describes.size, labelNotices]
    by_cases far : 32767 < (commands past).length <;> simp [far]

/-- One step of the walk: a token is taken in, or is the fault that stops the walk. -/
theorem place_ends (mode : Mode) (describes : layout.Describes past) {token : Token}
    (named : mode = .strict → token.item ≠ .label "") :
    (layout.place mode token).Ends (mode.stops (tokenFault? past token))
      (tokenNotices past token) (·.Describes (past ++ [token])) := by
  obtain ⟨line, statement⟩ := token
  have extended (op : Operation) : (pure layout.extend : Assembly Layout).Ends none []
      (·.Describes (past ++ [⟨line, .operation op⟩])) :=
    Traced.ends_pure (describes.extend line op)
  match statement with
  | .label name =>
    exact declare_ends mode describes line fun strict empty => named strict (by rw [empty])
  | .operation (.address operand) =>
    exact (extended (.address operand)).of_eq mode.stops_none.symm rfl
  | .operation (.compute text) =>
    refine (Traced.ends_bind (mode.demand_ends ..) fun _ _ _ =>
      extended (.compute text)).of_eq ?_ rfl
    simp only [Option.or_none, tokenFault?]
    cases looksLikeLabel text <;> rfl

/-- The first walk over a program. A label without a name, which no source has, is a matter of
strict mode only. -/
theorem ofTokens_ends (mode : Mode) {tokens : List Token}
    (named : mode = .strict → ∀ token ∈ tokens, token.item ≠ .label "") :
    (ofTokens mode tokens).Ends
      (mode.stops ((withPast tokens).findSome? fun p => tokenFault? p.1 p.2))
      ((withPast tokens).flatMap fun p => tokenNotices p.1 p.2) (·.Describes tokens) := by
  have step (past : List Token) (token : Token) (layout : Layout)
      (found : (past, token) ∈ withPast tokens) (describes : layout.Describes past) :
      (layout.place mode token).Ends (mode.stops (tokenFault? past token))
        (tokenNotices past token) (·.Describes (past ++ [token])) :=
    place_ends mode describes fun strict => named strict token (mem_of_mem_withPast found)
  rw [mode.stops_findSome?]
  exact Traced.foldl_ends (fun past (layout : Layout) => layout.Describes past) describes_start step

end Layout

end HackAssembler
