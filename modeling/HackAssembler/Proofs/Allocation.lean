import HackAssembler.Proofs.Meaning
import HackAssembler.Proofs.Mode
import Mathlib.Data.List.TakeWhile

/-!
# The second walk gives addresses to the variables

Once the labels are placed, names stand for what they are known to stand for, and every other
operand that is no numeral is a variable. An allocation describes the commands it has met: its
counter stands behind as many addresses as there are variables among their operands, and its table
finds the known names and those variables. `resolve_ends` says that every operand keeps that up and
gets the address that the meaning of the program gives it.

The counter has sixteen bits and wraps around in lenient mode. In strict mode it never gets there:
as long as no fault was found, the variables fit below the end of the addresses
(`card_variableNames_le`).
-/

set_option autoImplicit false

namespace HackAssembler

namespace Meaning

variable {names : Names} {past : List Command} {line : Nat} {operand text : String}

@[simp] theorem operands_concat_address :
    operands (past ++ [⟨line, .address operand⟩]) = operands past ++ [operand] := by
  simp [operands]

@[simp] theorem operands_concat_compute :
    operands (past ++ [⟨line, .compute text⟩]) = operands past := by
  simp [operands]

theorem operands_append (commands more : List Command) :
    operands (commands ++ more) = operands commands ++ operands more :=
  List.filterMap_append ..

theorem mem_operands_iff {commands : List Command} :
    operand ∈ operands commands ↔ ∃ line, ⟨line, .address operand⟩ ∈ commands := by
  simp only [operands, List.mem_filterMap]
  constructor
  · rintro ⟨⟨line, op⟩, found, read⟩
    cases op with
    | compute text => contradiction
    | address other =>
      obtain rfl : other = operand := Option.some.inj read
      exact ⟨line, found⟩
  · rintro ⟨line, found⟩
    exact ⟨_, found, rfl⟩

theorem isVariable_iff :
    isVariable names operand = true ↔
      Literal.isNumeral operand = false ∧ names operand = none := by
  simp [isVariable]

theorem mem_variableNames :
    operand ∈ variableNames names past ↔
      operand ∈ operands past ∧ isVariable names operand = true := by
  simp [variableNames]

theorem variableNames_concat_address :
    variableNames names (past ++ [⟨line, .address operand⟩]) =
      if isVariable names operand then insert operand (variableNames names past)
      else variableNames names past := by
  simp only [variableNames, operands_concat_address, List.filter_append, List.toFinset_append]
  by_cases variable_ : isVariable names operand = true
  · rw [if_pos variable_, List.filter_cons_of_pos variable_, List.filter_nil, List.toFinset_cons,
      List.toFinset_nil, Finset.union_insert, Finset.union_empty]
  · rw [if_neg variable_, List.filter_cons_of_neg variable_, List.filter_nil, List.toFinset_nil,
      Finset.union_empty]

@[simp] theorem variableNames_concat_compute :
    variableNames names (past ++ [⟨line, .compute text⟩]) = variableNames names past := by
  simp only [variableNames, operands_concat_compute]

theorem takeWhile_ne_append_cons (before after : List String) (stop : String) :
    (before ++ stop :: after).takeWhile (· ≠ stop) = before.takeWhile (· ≠ stop) := by
  induction before with
  | nil => simp
  | cons first rest ih =>
    by_cases here : first = stop
    · simp [here]
    · rw [List.cons_append, List.takeWhile_cons_of_pos (by simpa using here), ih,
        List.takeWhile_cons_of_pos (by simpa using here)]

/-- Before an operand comes up, every variable is an earlier one. -/
theorem earlierVariables_of_notMem (fresh : operand ∉ operands past) :
    earlierVariables names past operand = variableNames names past := by
  have all : (operands past).takeWhile (· ≠ operand) = operands past := by
    rw [List.takeWhile_eq_self_iff]
    intro other found
    apply decide_eq_true
    rintro rfl
    exact fresh found
  rw [earlierVariables, variableNames, all]

/-- What comes up after an operand does not change which variables are earlier. -/
theorem earlierVariables_append_of_mem (found : operand ∈ operands past) (rest : List Command) :
    earlierVariables names (past ++ rest) operand = earlierVariables names past operand := by
  obtain ⟨before, after, split⟩ := List.append_of_mem found
  have whole : operands (past ++ rest) = before ++ operand :: (after ++ operands rest) := by
    rw [operands_append, split, List.append_assoc, List.cons_append]
  rw [earlierVariables, earlierVariables, whole, split, takeWhile_ne_append_cons,
    takeWhile_ne_append_cons]

/-- In front of an operand come the variables of the commands before it, if it does not come up in
them, and its own earlier variables. -/
theorem earlierVariables_append_of_notMem (fresh : operand ∉ operands past)
    (rest : List Command) :
    earlierVariables names (past ++ rest) operand =
      variableNames names past ∪ earlierVariables names rest operand := by
  have others : ∀ other ∈ operands past, decide (other ≠ operand) = true := by
    intro other found
    apply decide_eq_true
    rintro rfl
    exact fresh found
  rw [earlierVariables, operands_append, List.takeWhile_append_of_pos others, List.filter_append,
    List.toFinset_append, variableNames, earlierVariables]

theorem earlierVariables_subset (names : Names) (commands : List Command) (operand : String) :
    earlierVariables names commands operand ⊆ variableNames names commands := by
  intro other found
  simp only [earlierVariables, variableNames, List.mem_toFinset, List.mem_filter] at found ⊢
  exact ⟨(List.takeWhile_sublist _).subset found.1, found.2⟩

theorem variableNames_congr {names' : Names}
    (same : ∀ operand ∈ operands past, isVariable names operand = isVariable names' operand) :
    variableNames names past = variableNames names' past := by
  rw [variableNames, List.filter_congr same, variableNames]

theorem earlierVariables_congr {names' : Names}
    (same : ∀ operand ∈ operands past, isVariable names operand = isVariable names' operand) :
    earlierVariables names past operand = earlierVariables names' past operand := by
  have earlier := List.filter_congr fun other (found : other ∈ _) =>
    same other ((List.takeWhile_sublist (· ≠ operand)).subset found)
  rw [earlierVariables, earlier, earlierVariables]

theorem isVariable_congr {names' : Names}
    (same : Literal.isNumeral operand = false → names operand = names' operand) :
    isVariable names operand = isVariable names' operand := by
  cases symbol : Literal.isNumeral operand with
  | true => simp [isVariable, symbol]
  | false => rw [isVariable, same symbol, isVariable]

/-- What the operands of some commands stand for depends on their own names only, and not on what
comes up behind them. -/
theorem operandAddress_append_congr {names' : Names}
    (same : ∀ operand ∈ operands past, Literal.isNumeral operand = false →
      names operand = names' operand)
    (used : operand ∈ operands past) (rest : List Command) :
    operandAddress names (past ++ rest) operand = operandAddress names' past operand := by
  unfold operandAddress
  cases symbol : Literal.isNumeral operand with
  | true => rfl
  | false =>
    rw [same operand used symbol, variableAddress, earlierVariables_append_of_mem used,
      variableAddress, earlierVariables_congr fun _ found => isVariable_congr (same _ found)]

theorem instruction_append_congr {names' : Names}
    (same : ∀ operand ∈ operands past, Literal.isNumeral operand = false →
      names operand = names' operand)
    {command : Command} (used : command ∈ past) (rest : List Command) :
    instruction names (past ++ rest) command.item = instruction names' past command.item := by
  obtain ⟨line, op⟩ := command
  cases op with
  | address operand =>
    rw [instruction, operandAddress_append_congr same (mem_operands_iff.2 ⟨line, used⟩), instruction]
  | compute text => rfl

theorem variableAddress_append_of_mem (found : operand ∈ variableNames names past)
    (rest : List Command) :
    variableAddress names (past ++ rest) operand = variableAddress names past operand := by
  rw [variableAddress, variableAddress,
    earlierVariables_append_of_mem (mem_variableNames.1 found).1]

theorem earlierVariables_append_cons (rest : List Command) :
    earlierVariables names (past ++ ⟨line, .address operand⟩ :: rest) operand =
      earlierVariables names past operand := by
  have whole : operands (past ++ ⟨line, .address operand⟩ :: rest) =
      operands past ++ operand :: operands rest := by
    simp [operands]
  rw [earlierVariables, earlierVariables, whole, takeWhile_ne_append_cons]

/-- A variable has its address from the place where it comes up first. -/
theorem earlierVariables_of_first {commands : List Command}
    (found : (past, ⟨line, .address operand⟩) ∈ withPast commands)
    (fresh : operand ∉ operands past) :
    earlierVariables names commands operand = variableNames names past := by
  obtain ⟨rest, rfl⟩ := mem_withPast.1 found
  rw [earlierVariables_append_cons, earlierVariables_of_notMem fresh]

/-- Only a variable that is new can fill up the room. -/
theorem card_variableNames_concat_le {command : Command}
    (few : (variableNames names past).card ≤ variableRoom)
    (room : ∀ line operand, command = ⟨line, .address operand⟩ →
      isVariable names operand = true → operand ∉ operands past →
      (variableNames names past).card < variableRoom) :
    (variableNames names (past ++ [command])).card ≤ variableRoom := by
  obtain ⟨line, operation⟩ := command
  cases operation with
  | compute text => rwa [variableNames_concat_compute]
  | address operand =>
    rw [variableNames_concat_address]
    by_cases new : isVariable names operand = true
    · rw [if_pos new, Finset.card_insert_eq_ite]
      by_cases met : operand ∈ variableNames names past
      · rwa [if_pos met]
      · have fresh : operand ∉ operands past := by
          intro found
          exact met (mem_variableNames.2 ⟨found, new⟩)
        rw [if_neg met]
        exact room line operand rfl new fresh
    · rwa [if_neg new]

/-- The variables of a program fit below the end of the addresses, if each of them finds room where
it comes up first. -/
theorem card_variableNames_le_of_room {commands : List Command}
    (room : ∀ past line operand, (past, ⟨line, .address operand⟩) ∈ withPast commands →
      (variableNames names past).card ≤ variableRoom →
      isVariable names operand = true → operand ∉ operands past →
      (variableNames names past).card < variableRoom) :
    (variableNames names commands).card ≤ variableRoom := by
  apply withPast_induction fun past => (variableNames names past).card ≤ variableRoom
  · exact Nat.zero_le _
  · intro past command found few
    apply card_variableNames_concat_le few
    rintro line operand rfl new fresh
    exact room past line operand found few new fresh

theorem addressDefect?_eq_none_of_sound
    (sound : commandFault? names past ⟨line, .address operand⟩ = none) :
    addressDefect? names past operand = none := by
  have fine : operandDefect? names past operand = none := Option.map_eq_none_iff.1 sound
  unfold operandDefect? at fine
  split at fine
  · contradiction
  · exact fine

/-- What is wrong with a command depends on the names of its operand and of those before it only. -/
theorem commandFault?_congr {names' : Names} {command : Command}
    (same : ∀ operand ∈ operands (past ++ [command]), Literal.isNumeral operand = false →
      names operand = names' operand) :
    commandFault? names past command = commandFault? names' past command := by
  obtain ⟨line, op⟩ := command
  cases op with
  | compute text => rfl
  | address operand =>
    rw [operands_concat_address] at same
    have here : isVariable names operand = isVariable names' operand :=
      isVariable_congr (same operand (List.mem_append_right _ (List.mem_singleton_self _)))
    have before : variableNames names past = variableNames names' past :=
      variableNames_congr fun other found =>
        isVariable_congr (same other (List.mem_append_left _ found))
    simp only [commandFault?, operandDefect?, addressDefect?, here, before]

/-- A new variable that is no fault finds room. -/
theorem card_variableNames_lt_of_sound (sound : addressDefect? names past operand = none)
    (new : isVariable names operand = true) (fresh : operand ∉ operands past) :
    (variableNames names past).card < variableRoom := by
  have name := (isVariable_iff.1 new).1
  by_contra full
  simp [addressDefect?, name, new, fresh, Nat.not_lt.1 full] at sound

/-- As long as no command has a fault, the variables fit below the end of the addresses. -/
theorem card_variableNames_le {command : Command}
    (few : (variableNames names past).card ≤ variableRoom)
    (sound : commandFault? names past command = none) :
    (variableNames names (past ++ [command])).card ≤ variableRoom := by
  apply card_variableNames_concat_le few
  rintro line operand rfl new fresh
  exact card_variableNames_lt_of_sound (addressDefect?_eq_none_of_sound sound) new fresh

/-- The meaning of an operand is settled when it comes up. -/
theorem operandAddress_append_cons (rest : List Command) :
    operandAddress names (past ++ ⟨line, .address operand⟩ :: rest) operand =
      operandAddress names past operand := by
  simp only [operandAddress, variableAddress, earlierVariables_append_cons]

end Meaning

namespace Allocation

open Meaning

variable {allocation : Allocation} {names : Names} {past : List Command} {line : Nat}
  {operand : String}

/-- The counter of an allocation stands behind the variables of the commands that it has met, and
its table finds the known names and these variables. -/
structure Describes (allocation : Allocation) (names : Names) (past : List Command) : Prop where
  next : allocation.next = UInt16.ofNat (16 + (variableNames names past).card)
  lookup (name : String) : allocation.symbols.lookup name =
    (names name).or
      (if name ∈ variableNames names past then some (variableAddress names past name) else none)

theorem describes_start {symbols : SymbolTable}
    (lookup : ∀ name, symbols.lookup name = names name) : (start symbols).Describes names [] where
  next := rfl
  lookup name := by simp [start, lookup name, variableNames, operands]

theorem Describes.count (describes : allocation.Describes names past) :
    allocation.count = UInt16.ofNat (variableNames names past).card := by
  rw [Allocation.count, describes.next, UInt16.ofNat_add, UInt16.add_comm]
  exact UInt16.add_sub_cancel _ variableBase

/-- An operand that is no new variable leaves the allocation as it is. -/
theorem Describes.keep (describes : allocation.Describes names past) (line : Nat)
    (operand : String) (old : isVariable names operand = true → operand ∈ operands past) :
    allocation.Describes names (past ++ [⟨line, .address operand⟩]) := by
  have same : variableNames names (past ++ [⟨line, .address operand⟩]) =
      variableNames names past := by
    rw [variableNames_concat_address]
    by_cases new : isVariable names operand = true
    · rw [if_pos new, Finset.insert_eq_of_mem (mem_variableNames.2 ⟨old new, new⟩)]
    · rw [if_neg new]
  refine ⟨by rw [same, describes.next], fun name => ?_⟩
  rw [same, describes.lookup name]
  by_cases found : name ∈ variableNames names past
  · rw [if_pos found, if_pos found, variableAddress_append_of_mem found]
  · rw [if_neg found, if_neg found]

theorem Describes.compute (describes : allocation.Describes names past) (line : Nat)
    (text : String) : allocation.Describes names (past ++ [⟨line, .compute text⟩]) := by
  refine ⟨by rw [variableNames_concat_compute, describes.next], fun name => ?_⟩
  rw [variableNames_concat_compute, variableAddress, earlierVariables, operands_concat_compute,
    describes.lookup name, variableAddress, earlierVariables]

/-- A new variable takes the address that the counter shows. -/
theorem Describes.insert (describes : allocation.Describes names past) (line : Nat)
    (new : isVariable names operand = true) (fresh : operand ∉ operands past) :
    Describes ⟨allocation.symbols.insert operand allocation.next, allocation.next + 1⟩ names
      (past ++ [⟨line, .address operand⟩]) := by
  have added : variableNames names (past ++ [⟨line, .address operand⟩]) =
      Insert.insert operand (variableNames names past) := by
    rw [variableNames_concat_address, if_pos new]
  have absent : operand ∉ variableNames names past := by
    intro found
    exact fresh (mem_variableNames.1 found).1
  constructor
  · rw [added, Finset.card_insert_of_notMem absent, ← Nat.add_assoc, describes.next,
      UInt16.ofNat_add (16 + _)]
    rfl
  · intro name
    rw [SymbolTable.lookup_insert, added, describes.lookup name]
    by_cases this : operand = name
    · subst this
      rw [if_pos rfl, (isVariable_iff.1 new).2, Option.none_or, if_pos (Finset.mem_insert_self ..),
        describes.next, variableAddress, earlierVariables_append_cons,
        earlierVariables_of_notMem fresh]
    · rw [if_neg this]
      by_cases found : name ∈ variableNames names past
      · rw [if_pos found, if_pos (Finset.mem_insert_of_mem found),
          variableAddress_append_of_mem found]
      · rw [if_neg found, if_neg (by simp [found, Ne.symm this])]

/-- An allocation in the course of the second walk: in strict mode the variables also fit below the
end of the addresses, so that the counter has not wrapped around. -/
structure Tracks (allocation : Allocation) (mode : Mode) (names : Names) (past : List Command) :
    Prop extends allocation.Describes names past where
  room : mode = .strict → (variableNames names past).card ≤ variableRoom

theorem next_eq_variableAddress (describes : allocation.Describes names past)
    (fresh : operand ∉ operands past) :
    allocation.next = variableAddress names past operand := by
  rw [describes.next, variableAddress, earlierVariables_of_notMem fresh]

/-- A new variable is bound to the address that the counter shows. -/
theorem bind_next_ends (describes : allocation.Describes names past) (line : Nat)
    (new : isVariable names operand = true) (fresh : operand ∉ operands past) :
    Traced.Ends
      (match allocation.symbols.bind operand allocation.next with
        | .ok symbols => do
          .note (.variablePlaced operand allocation.next)
          return (⟨symbols, allocation.next + 1⟩, allocation.next)
        | .error previous => return (allocation, previous) : Assembly (Allocation × Word))
      none [.variablePlaced operand (variableAddress names past operand)]
      fun r => r.1.Describes names (past ++ [⟨line, .address operand⟩]) ∧
        r.2 = variableAddress names past operand := by
  have next := next_eq_variableAddress describes fresh
  have unbound : allocation.symbols.lookup operand = none := by
    rw [describes.lookup operand, (isVariable_iff.1 new).2, Option.none_or,
      if_neg fun found => fresh (mem_variableNames.1 found).1]
  rw [SymbolTable.bind, unbound]
  refine ⟨(⟨allocation.symbols.insert operand allocation.next, allocation.next + 1⟩,
    allocation.next), ?_, describes.insert line new fresh, next⟩
  rw [← next]
  rfl

/-- A new variable gets the address behind the variables before it. -/
theorem allocate_ends {mode : Mode} (tracks : allocation.Tracks mode names past)
    (line : Nat) (new : isVariable names operand = true) (fresh : operand ∉ operands past) :
    (allocation.allocate mode line operand).Ends
      (mode.stops (if variableRoom ≤ (variableNames names past).card then
        some ⟨line, .addressOutOfRange operand⟩ else none))
      ((if maxAddress < variableAddress names past operand then [.variablePastEnd line operand]
        else []) ++ [.variablePlaced operand (variableAddress names past operand)])
      fun r => r.1.Describes names (past ++ [⟨line, .address operand⟩]) ∧
        r.2 = variableAddress names past operand := by
  refine (Traced.ends_bind (mode.expect_ends ..) fun _ _ _ =>
    bind_next_ends tracks.toDescribes line new fresh).of_eq ?_ ?_
  · rw [Option.or_none]
    cases mode with
    | lenient => rfl
    | strict =>
      -- The counter has not wrapped around, so the check sees how many variables there are.
      have few := tracks.room rfl
      have fits : allocation.next ≤ maxAddress ↔
          ¬ variableRoom ≤ (variableNames names past).card := by
        unfold variableRoom at few ⊢
        rw [tracks.next, ofNat_le_maxAddress_iff (by omega)]
        omega
      by_cases full : variableRoom ≤ (variableNames names past).card <;> simp [fits, full]
  · rw [next_eq_variableAddress tracks.toDescribes fresh]
    by_cases fits : variableAddress names past operand ≤ maxAddress
    · simp [fits, UInt16.not_lt.2 fits]
    · simp [fits, UInt16.not_le.1 fits]

/-- A numeral stands for its value. -/
theorem literal_ends (mode : Mode) (describes : allocation.Describes names past)
    (line : Nat) (numeral : Literal.isNumeral operand = true) :
    Traced.Ends
      (do
        mode.expect (!decide (maxAddress.toNat < Literal.value operand)) line
          (.addressOutOfRange operand)
          (.literalCut line operand (UInt16.ofNat (Literal.value operand)))
        return (allocation, UInt16.ofNat (Literal.value operand)) : Assembly (Allocation × Word))
      (mode.stops ((addressDefect? names past operand).map (⟨line, ·⟩)))
      (operandNotices names past line operand)
      fun r => r.1.Describes names (past ++ [⟨line, .address operand⟩]) ∧
        r.2 = operandAddress names past operand := by
  have kept := describes.keep line operand (by simp [isVariable, numeral])
  refine (Traced.ends_bind (mode.expect_ends ..) fun _ _ _ => Traced.ends_pure
    ⟨kept, (if_pos numeral).symm⟩).of_eq ?_ ?_
  · rw [Option.or_none, addressDefect?, if_pos numeral, toNat_maxAddress]
    by_cases large : 32767 < Literal.value operand <;> simp [large]
  · rw [operandNotices, if_pos numeral, toNat_maxAddress]
    by_cases large : 32767 < Literal.value operand <;> simp [large]

/-- A name stands for its address, and gets one if it has none. -/
theorem name_ends {mode : Mode} (tracks : allocation.Tracks mode names past)
    (line : Nat) (name : Literal.isNumeral operand = false) :
    Traced.Ends
      (match allocation.symbols.lookup operand with
        | some address => return (allocation, address)
        | none => allocation.allocate mode line operand : Assembly (Allocation × Word))
      (mode.stops ((addressDefect? names past operand).map (⟨line, ·⟩)))
      (operandNotices names past line operand)
      fun r => r.1.Describes names (past ++ [⟨line, .address operand⟩]) ∧
        r.2 = operandAddress names past operand := by
  rw [tracks.lookup operand]
  simp only [addressDefect?, operandNotices, operandAddress, name, Bool.false_eq_true, if_false]
  cases known : names operand with
  | some address =>
    have old : isVariable names operand = false := by simp [isVariable, known]
    have kept := tracks.keep line operand (by simp [old])
    exact (Traced.ends_pure ⟨kept, rfl⟩).of_eq (by simp [old]) (by simp [old])
  | none =>
    have new : isVariable names operand = true := by simp [isVariable, known, name]
    by_cases met : operand ∈ operands past
    · have kept := tracks.keep line operand (fun _ => met)
      rw [Option.none_or, if_pos (mem_variableNames.2 ⟨met, new⟩)]
      exact (Traced.ends_pure ⟨kept, rfl⟩).of_eq (by simp [met]) (by simp [met])
    · rw [Option.none_or, if_neg fun found => met (mem_variableNames.1 found).1]
      refine (allocate_ends tracks line new met).of_eq ?_ (by simp [new, met])
      by_cases full : variableRoom ≤ (variableNames names past).card <;> simp [new, met, full]

/-- An operand gets the address that the meaning of the program gives it, or is the fault that
stops the walk. -/
theorem resolve_ends {mode : Mode} (tracks : allocation.Tracks mode names past)
    (line : Nat) (operand : String) :
    (allocation.resolve mode line operand).Ends
      (mode.stops ((operandDefect? names past operand).map (⟨line, ·⟩)))
      (operandNotices names past line operand)
      fun r => r.1.Describes names (past ++ [⟨line, .address operand⟩]) ∧
        r.2 = operandAddress names past operand := by
  have stated : (mode.stops (if !operand.isEmpty then none else some ⟨line, .missingOperand⟩)).or
      (mode.stops ((addressDefect? names past operand).map (⟨line, ·⟩))) =
      mode.stops ((operandDefect? names past operand).map (⟨line, ·⟩)) := by
    rw [← mode.stops_or, operandDefect?]
    by_cases empty : operand = "" <;> simp [empty]
  rw [resolve]
  cases numeral : Literal.isNumeral operand with
  | true =>
    rw [Literal.ofText?_eq_some numeral]
    exact (Traced.ends_bind (mode.demand_ends ..) fun _ _ _ =>
      literal_ends mode tracks.toDescribes line numeral).of_eq stated rfl
  | false =>
    rw [Literal.ofText?_eq_none numeral]
    exact (Traced.ends_bind (mode.demand_ends ..) fun _ _ _ =>
      name_ends tracks line numeral).of_eq stated rfl

end Allocation

end HackAssembler
