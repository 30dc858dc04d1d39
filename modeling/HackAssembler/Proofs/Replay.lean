import HackAssembler.Proofs.Records
import HackAssembler.Proofs.Silence

/-!
# The log tells what names stand for

The notices that give an address to a name, taken from the first to the last, tell for every name
what it stands for: the address that it was given last, or its own if it is reserved. After the
notices of the labels this is what the labels of the program settle (`address?_labelLog`), and the
notice of a variable adds the one name that it speaks of (`tells_variableLog`). So at the end of a
run every operand has been encoded as the log says, and a notice that moves a label says truly from
where.
-/

set_option autoImplicit false

namespace HackAssembler

open Meaning

/-! ## Replaying -/

namespace Assignment

/-- What a name stands for after some assignments: its last address, or the one that is reserved
for it. -/
def address? (log : List Assignment) (name : String) : Option Word :=
  ((log.reverse.find? fun assignment => assignment.name = name).map address).or
    (reservedNames.lookup name)

/-- Every assignment says what its name stood for before if this was another address, and says
nothing of the kind otherwise. -/
def Accounts (log : List Assignment) : Prop :=
  ∀ before assignment, (before, assignment) ∈ withPast log →
    assignment.previous? = (address? before assignment.name).filter (· ≠ assignment.address)

variable {log : List Assignment} {assignment : Assignment}

theorem address?_concat (name : String) :
    address? (log ++ [assignment]) name =
      if assignment.name = name then some assignment.address else address? log name := by
  rw [address?, List.reverse_append, List.reverse_singleton, List.singleton_append, List.find?_cons]
  by_cases same : assignment.name = name
  · simp [same]
  · simp [same, address?]

theorem accounts_nil : Accounts [] := by
  intro before assignment found
  contradiction

theorem Accounts.concat (accounts : Accounts log)
    (last : assignment.previous? =
      (address? log assignment.name).filter (· ≠ assignment.address)) :
    Accounts (log ++ [assignment]) := by
  intro before other found
  rw [withPast_concat, List.mem_append, List.mem_singleton] at found
  rcases found with earlier | here
  · exact accounts before other earlier
  · obtain ⟨rfl, rfl⟩ := Prod.mk.inj here
    exact last

end Assignment

namespace Meaning

open Assignment

/-! ## Labels -/

section Labels

variable {past : List Token} {line : Nat} {name : String} {op : Operation}

/-- The names that are declared, label by label. -/
def labelNames (tokens : List Token) : List String :=
  tokens.filterMap fun token => match token.item with
    | .label name => some name
    | .operation _ => none

/-- The assignments that the first walk notes. -/
def labelLog (tokens : List Token) : List Assignment :=
  (withPast tokens).flatMap fun p => (tokenNotices p.1 p.2).filterMap Notice.assignment?

/-- A label is given its place, in place of another one that its name had. -/
def labelAssignment (past : List Token) (name : String) : Assignment :=
  let address := UInt16.ofNat (commands past).length
  ⟨.label, name, (known? past name).filter (· ≠ address), address⟩

theorem labelLog_concat (past : List Token) (token : Token) :
    labelLog (past ++ [token]) =
      labelLog past ++ (tokenNotices past token).filterMap Notice.assignment? := by
  rw [labelLog, withPast_concat, List.flatMap_append, List.flatMap_singleton, labelLog]

theorem assignment?_placement (past : List Token) (line : Nat) (name : String) :
    (placement past line name).assignment? = some (labelAssignment past name) := by
  unfold placement labelAssignment
  cases known? past name with
  | none => rfl
  | some previous =>
    by_cases same : previous = UInt16.ofNat (commands past).length <;>
      simp [same, Notice.assignment?, Option.filter]

theorem labelLog_concat_label :
    labelLog (past ++ [⟨line, .label name⟩]) = labelLog past ++ [labelAssignment past name] := by
  have warned : (if 32767 < (commands past).length then
      [Notice.labelPastEnd line name (commands past).length] else []).filterMap
        Notice.assignment? = [] := by
    split <;> rfl
  have here : (labelNotices past line name).filterMap Notice.assignment? =
      [labelAssignment past name] := by
    rw [labelNotices, List.filterMap_append, warned, List.nil_append,
      List.filterMap_cons_some (assignment?_placement past line name), List.filterMap_nil]
  rw [labelLog_concat, ← here, tokenNotices]

theorem labelLog_concat_operation :
    labelLog (past ++ [⟨line, .operation op⟩]) = labelLog past := by
  rw [labelLog_concat, tokenNotices, List.filterMap_nil, List.append_nil]

theorem address?_labelLog (tokens : List Token) (name : String) :
    address? (labelLog tokens) name = known? tokens name := by
  induction tokens using List.reverseRecOn with
  | nil => rfl
  | append_singleton past token ih =>
    obtain ⟨line, statement⟩ := token
    cases statement with
    | label declared =>
      rw [labelLog_concat_label, address?_concat, ih, known?_concat_label, labelAssignment]
    | operation op => rw [labelLog_concat_operation, ih, known?_concat_operation]

theorem accounts_labelLog (tokens : List Token) : Accounts (labelLog tokens) := by
  induction tokens using List.reverseRecOn with
  | nil => exact accounts_nil
  | append_singleton past token ih =>
    obtain ⟨line, statement⟩ := token
    cases statement with
    | label name =>
      rw [labelLog_concat_label]
      apply ih.concat
      rw [address?_labelLog]
      rfl
    | operation op => rwa [labelLog_concat_operation]

/-- Every label is given an address once, in the order of the source. -/
theorem map_labelLog (tokens : List Token) :
    (labelLog tokens).map (fun assignment => (assignment.kind, assignment.name)) =
      (labelNames tokens).map fun name => (.label, name) := by
  induction tokens using List.reverseRecOn with
  | nil => rfl
  | append_singleton past token ih =>
    obtain ⟨line, statement⟩ := token
    cases statement with
    | label name => simp [labelLog_concat_label, ih, labelNames, labelAssignment]
    | operation op => simp [labelLog_concat_operation, ih, labelNames]

end Labels

/-! ## Variables -/

section Variables

variable {names : Names} {past : List Command} {line : Nat} {operand text : String}
  {log : List Assignment}

/-- The variables of a program, in the order in which they come up. -/
def variableOrder (names : Names) (commands : List Command) : List String :=
  ((operands commands).filter (isVariable names)).eraseDups

/-- The assignments that the second walk notes. -/
def variableLog (names : Names) (commands : List Command) : List Assignment :=
  (withPast commands).flatMap fun p => (commandNotices names p.1 p.2).filterMap Notice.assignment?

theorem variableLog_concat (past : List Command) (command : Command) :
    variableLog names (past ++ [command]) = variableLog names past ++
      (commandNotices names past command).filterMap Notice.assignment? := by
  rw [variableLog, withPast_concat, List.flatMap_append, List.flatMap_singleton, variableLog]

theorem variableLog_concat_compute :
    variableLog names (past ++ [⟨line, .compute text⟩]) = variableLog names past := by
  have silent : (commandNotices names past ⟨line, .compute text⟩).filterMap Notice.assignment? =
      [] := by
    rw [List.filterMap_eq_nil_iff]
    intro notice said
    obtain ⟨unknown, -, rfl⟩ := List.mem_map.1 said
    rfl
  rw [variableLog_concat, silent, List.append_nil]

/-- A variable is given an address where it comes up first. -/
theorem variableLog_concat_new (new : isVariable names operand = true)
    (fresh : operand ∉ operands past) :
    variableLog names (past ++ [⟨line, .address operand⟩]) =
      variableLog names past ++
        [⟨.variable, operand, none, variableAddress names past operand⟩] := by
  have name := (isVariable_iff.1 new).1
  have warned : (if maxAddress < variableAddress names past operand then
      [Notice.variablePastEnd line operand] else []).filterMap Notice.assignment? = [] := by
    split <;> rfl
  have here : (operandNotices names past line operand).filterMap Notice.assignment? =
      [⟨.variable, operand, none, variableAddress names past operand⟩] := by
    unfold operandNotices
    rw [if_neg (by simp [name]), if_pos ⟨new, fresh⟩, List.filterMap_append, warned]
    rfl
  rw [variableLog_concat, ← here, commandNotices]

theorem variableLog_concat_old (old : isVariable names operand = true → operand ∈ operands past) :
    variableLog names (past ++ [⟨line, .address operand⟩]) = variableLog names past := by
  have silent : (operandNotices names past line operand).filterMap Notice.assignment? = [] := by
    unfold operandNotices
    split
    · split <;> rfl
    · rw [if_neg fun ⟨new, fresh⟩ => fresh (old new), List.filterMap_nil]
  rw [variableLog_concat, commandNotices, silent, List.append_nil]

theorem eraseDups_concat (list : List String) (last : String) :
    (list ++ [last]).eraseDups =
      if last ∈ list then list.eraseDups else list.eraseDups ++ [last] := by
  rw [List.eraseDups_append]
  by_cases found : last ∈ list <;> simp [List.removeAll, found, List.eraseDups_cons]

theorem variableOrder_concat_compute :
    variableOrder names (past ++ [⟨line, .compute text⟩]) = variableOrder names past := by
  simp only [variableOrder, operands_concat_compute]

theorem variableOrder_concat_address :
    variableOrder names (past ++ [⟨line, .address operand⟩]) =
      if isVariable names operand = true ∧ operand ∉ operands past then
        variableOrder names past ++ [operand]
      else variableOrder names past := by
  simp only [variableOrder, operands_concat_address, List.filter_append]
  by_cases new : isVariable names operand = true
  · by_cases met : operand ∈ operands past <;> simp [eraseDups_concat, new, met]
  · simp [new]

/-- Every variable is given an address once, in the order in which they come up. -/
theorem map_variableLog (names : Names) (commands : List Command) :
    (variableLog names commands).map (fun assignment => (assignment.kind, assignment.name)) =
      (variableOrder names commands).map fun name => (.variable, name) := by
  induction commands using List.reverseRecOn with
  | nil => rfl
  | append_singleton past command ih =>
    obtain ⟨line, operation⟩ := command
    cases operation with
    | compute text => rw [variableLog_concat_compute, ih, variableOrder_concat_compute]
    | address operand =>
      rw [variableOrder_concat_address]
      by_cases new : isVariable names operand = true ∧ operand ∉ operands past
      · rw [variableLog_concat_new new.1 new.2, List.map_append, ih, if_pos new, List.map_append]
        rfl
      · rw [if_neg new, ← ih]
        rw [not_and, not_not] at new
        rw [variableLog_concat_old new]

/-- A log tells what the operands of some commands stand for, and what is known of other names. -/
structure Tells (log : List Assignment) (names : Names) (past : List Command) : Prop where
  accounts : Accounts log
  met : ∀ operand ∈ operands past, Literal.isNumeral operand = false →
    address? log operand = some (operandAddress names past operand)
  unmet : ∀ operand, operand ∉ operands past → address? log operand = names operand

theorem Tells.compute (tells : Tells log names past) (line : Nat) (text : String) :
    Tells log names (past ++ [⟨line, .compute text⟩]) where
  accounts := tells.accounts
  met operand found numeral := by
    rw [operands_concat_compute] at found
    rw [tells.met operand found numeral,
      operandAddress_append_congr (fun _ _ _ => rfl) found]
  unmet operand fresh := by
    rw [operands_concat_compute] at fresh
    exact tells.unmet operand fresh

/-- An operand that is no new variable leaves the log as it is. -/
theorem Tells.keep (tells : Tells log names past) (line : Nat)
    (old : isVariable names operand = true → operand ∈ operands past) :
    Tells log names (past ++ [⟨line, .address operand⟩]) where
  accounts := tells.accounts
  met other found numeral := by
    by_cases before : other ∈ operands past
    · rw [tells.met other before numeral, operandAddress_append_congr (fun _ _ _ => rfl) before]
    · obtain rfl : other = operand := by simpa [before] using found
      -- It comes up here first and is no variable, so it is known.
      obtain ⟨address, known⟩ : ∃ address, names other = some address := by
        rw [← Option.ne_none_iff_exists']
        intro unknown
        exact before (old (isVariable_iff.2 ⟨numeral, unknown⟩))
      rw [tells.unmet other before, known, operandAddress, if_neg (by simp [numeral]), known]
  unmet other fresh := by
    rw [operands_concat_address, List.mem_append, not_or] at fresh
    exact tells.unmet other fresh.1

/-- A new variable is known by the assignment that is added for it. -/
theorem Tells.insert (tells : Tells log names past) (line : Nat)
    (new : isVariable names operand = true) (fresh : operand ∉ operands past) :
    Tells (log ++ [⟨.variable, operand, none, variableAddress names past operand⟩]) names
      (past ++ [⟨line, .address operand⟩]) where
  accounts := by
    apply tells.accounts.concat
    rw [tells.unmet operand fresh, (isVariable_iff.1 new).2]
    rfl
  met other found numeral := by
    rw [address?_concat]
    by_cases same : operand = other
    · subst same
      rw [if_pos rfl, operandAddress_append_cons, operandAddress_of_isVariable new]
    · have before : other ∈ operands past := by simpa [Ne.symm same] using found
      rw [if_neg same, tells.met other before numeral,
        operandAddress_append_congr (fun _ _ _ => rfl) before]
  unmet other absent := by
    rw [operands_concat_address, List.mem_append, List.mem_singleton, not_or] at absent
    rw [address?_concat, if_neg (Ne.symm absent.2), tells.unmet other absent.1]

/-- What the log of the labels tells before the second walk, it tells after it together with the log
of the variables. -/
theorem tells_variableLog (start : Tells log names []) (commands : List Command) :
    Tells (log ++ variableLog names commands) names commands := by
  -- What the log tells after the commands so far is carried along; the next one adds the assignment
  -- of a variable that comes up first, or none.
  induction commands using List.reverseRecOn with
  | nil => rwa [variableLog, withPast_nil, List.flatMap_nil, List.append_nil]
  | append_singleton past command ih =>
    obtain ⟨line, operation⟩ := command
    cases operation with
    | compute text =>
      rw [variableLog_concat_compute]
      exact ih.compute line text
    | address operand =>
      by_cases new : isVariable names operand = true ∧ operand ∉ operands past
      · rw [variableLog_concat_new new.1 new.2, ← List.append_assoc]
        exact ih.insert line new.1 new.2
      · rw [not_and, not_not] at new
        rw [variableLog_concat_old new]
        exact ih.keep line new

end Variables

/-! ## Programs -/

theorem tells_labelLog (tokens : List Token) : Tells (labelLog tokens) (known? tokens) [] where
  accounts := accounts_labelLog tokens
  met operand found := by contradiction
  unmet operand _ := address?_labelLog tokens operand

theorem filterMap_assignment?_notices (tokens : List Token) :
    (notices tokens).filterMap Notice.assignment? =
      labelLog tokens ++ variableLog (known? tokens) (commands tokens) := by
  rw [notices, List.filterMap_append, List.filterMap_append, List.filterMap_flatMap,
    List.filterMap_cons_none rfl, List.filterMap_flatMap, List.filterMap_cons_none rfl,
    List.filterMap_nil, List.append_nil, labelLog, variableLog]

end Meaning

/-- An assembly that succeeds says what its tokens call for. -/
theorem trail_of_outcome {mode : Mode} {source : String} {listing : Listing}
    (assembled : (assemble mode source).outcome = .ok listing) :
    (assemble mode source).trail = notices (Token.ofSource source) :=
  ((assemble_ends mode source).of_ok assembled).2.1

/-- The log of an assembly that succeeds, in either mode, tells what the names of the program stand
for. Which records give an address to a name, and which address to which name, shows from their
texts alone. There is one such record for every label, in the order of the source, and then one for
every variable, in the order in which they come up. An address instruction for a name carries the
address of the last record for this name, or the one that is reserved for it if there is none. And
a record says from where it moves a name exactly if the name stood for that other address before
it. -/
theorem log_of_assembled {mode : Mode} {source : String} {listing : Listing}
    (assembled : (assemble mode source).outcome = .ok listing) :
    let tokens := Token.ofSource source
    let trail := (assemble mode source).trail
    let log := trail.filterMap Notice.assignment?
    (∀ other : List Notice, other.map Notice.record = trail.map Notice.record →
      other.filterMap Notice.assignment? = log) ∧
    log.map (fun assignment => (assignment.kind, assignment.name)) =
      (labelNames tokens).map (fun name => (.label, name)) ++
        (variableOrder (known? tokens) (commands tokens)).map (fun name => (.variable, name)) ∧
    (∀ entry ∈ listing.entries, ∀ word, entry.instruction = .address word →
      ∃ operand, entry.source = "@" ++ operand ∧
        (Literal.isNumeral operand = false →
          Assignment.address? log operand = some entry.instruction.encode)) ∧
    ∀ before assignment, (before, assignment) ∈ withPast log →
      ∀ previous, assignment.previous? = some previous ↔
        Assignment.address? before assignment.name = some previous ∧
          previous ≠ assignment.address := by
  dsimp only
  obtain rfl := eq_listing_of_outcome assembled
  have tells := tells_variableLog (tells_labelLog (Token.ofSource source))
    (commands (Token.ofSource source))
  rw [← filterMap_assignment?_notices, ← trail_of_outcome assembled] at tells
  refine ⟨fun other same => Notice.filterMap_assignment?_eq same, ?_, ?_, ?_⟩
  · rw [trail_of_outcome assembled, filterMap_assignment?_notices, List.map_append, map_labelLog,
      map_variableLog]
  · intro entry found word loads
    obtain ⟨⟨⟨line, operation⟩, place⟩, placed, rfl⟩ := List.mem_map.1 found
    cases operation with
    | compute text => contradiction
    | address operand =>
      have comesUp : operand ∈ operands (commands (Token.ofSource source)) :=
        mem_operands_iff.2 ⟨line, List.fst_mem_of_mem_zipIdx placed⟩
      exact ⟨operand, rfl, tells.met operand comesUp⟩
  · intro before assignment found previous
    rw [tells.accounts before assignment found, Option.filter_eq_some_iff, decide_eq_true_iff]

/-- A reserved name and a label are moved, and a variable comes up before and behind that. -/
theorem log_of_assembled_moved_twice :
    (assemble .lenient "@i\n(SP)\n(END)\n@END\n(END)\n@SP\n@i").outcome =
      .ok ⟨[⟨0, 1, "@i", .address 16⟩, ⟨1, 4, "@END", .address 2⟩, ⟨2, 6, "@SP", .address 1⟩,
        ⟨3, 7, "@i", .address 16⟩]⟩ ∧
    (assemble .lenient "@i\n(SP)\n(END)\n@END\n(END)\n@SP\n@i").trail.filterMap
        Notice.assignment? =
      [⟨.label, "SP", some 0, 1⟩, ⟨.label, "END", none, 1⟩, ⟨.label, "END", some 1, 2⟩,
        ⟨.variable, "i", none, 16⟩] ∧
    Assignment.address? [⟨.label, "SP", some 0, 1⟩, ⟨.label, "END", none, 1⟩,
      ⟨.label, "END", some 1, 2⟩, ⟨.variable, "i", none, 16⟩] "END" = some 2 := by
  have assembled : (assemble .lenient "@i\n(SP)\n(END)\n@END\n(END)\n@SP\n@i").outcome =
      .ok ⟨[⟨0, 1, "@i", .address 16⟩, ⟨1, 4, "@END", .address 2⟩, ⟨2, 6, "@SP", .address 1⟩,
        ⟨3, 7, "@i", .address 16⟩]⟩ := by
    decide +kernel
  have log : (assemble .lenient "@i\n(SP)\n(END)\n@END\n(END)\n@SP\n@i").trail.filterMap
        Notice.assignment? =
      [⟨.label, "SP", some 0, 1⟩, ⟨.label, "END", none, 1⟩, ⟨.label, "END", some 1, 2⟩,
        ⟨.variable, "i", none, 16⟩] := by
    decide +kernel
  obtain ⟨-, -, encoded, -⟩ := log_of_assembled assembled
  obtain ⟨operand, written, told⟩ := encoded ⟨1, 4, "@END", .address 2⟩ (by simp) 2 rfl
  obtain rfl : "END" = operand := (String.append_right_inj "@").1 written
  rw [log] at told
  exact ⟨assembled, log, told (by decide)⟩

end HackAssembler
