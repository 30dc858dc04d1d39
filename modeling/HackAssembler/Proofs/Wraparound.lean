import HackAssembler.Proofs.Range
import HackAssembler.Proofs.Reading
import HackAssembler.Proofs.Records

/-!
# Variables past the end of the addresses

The counter for variables has sixteen bits, and a variable is said to lie past the end of the
addresses if the counter shows so. Of the variables that come after the 32752 ones with room this
holds only as long as the counter has not wrapped around: from the 65521st variable on the
addresses begin again at zero, and nothing is said for the next 32768 variables. A program of
numbered variables shows it.
-/

set_option autoImplicit false

namespace HackAssembler

namespace Meaning

variable {names : Names} {past : List Command} {line : Nat} {operand : String}

/-! ## Warnings -/

theorem not_pastEnd_mem_tokenNotices (past : List Token) (token : Token) :
    Notice.variablePastEnd line operand ∉ tokenNotices past token := by
  obtain ⟨line', statement⟩ := token
  cases statement with
  | operation op => simp [tokenNotices]
  | label name =>
    intro said
    rcases List.mem_append.1 said with far | placed
    · split at far
      · simp at far
      · contradiction
    · rw [List.mem_singleton, placement] at placed
      split at placed
      · contradiction
      · split at placed <;> contradiction

/-- A variable is said to lie past the end where it comes up, and because its address does. -/
theorem command_of_pastEnd {command : Command}
    (said : .variablePastEnd line operand ∈ commandNotices names past command) :
    command = ⟨line, .address operand⟩ ∧ maxAddress < variableAddress names past operand := by
  obtain ⟨line', operation⟩ := command
  cases operation with
  | compute text => simp [commandNotices] at said
  | address operand' =>
    dsimp only [commandNotices, operandNotices] at said
    split at said
    · split at said
      · simp at said
      · contradiction
    · split at said
      · rcases List.mem_append.1 said with far | placed
        · split at far
          · rename_i past_end
            obtain ⟨rfl, rfl⟩ := Notice.variablePastEnd.inj (List.mem_singleton.1 far)
            exact ⟨rfl, past_end⟩
          · contradiction
        · simp at placed
      · contradiction

theorem pastEnd_mem_operandNotices (line : Nat) (new : isVariable names operand = true)
    (fresh : operand ∉ operands past) (far : maxAddress < variableAddress names past operand) :
    .variablePastEnd line operand ∈ operandNotices names past line operand := by
  have name := (isVariable_iff.1 new).1
  simp [operandNotices, name, new, fresh, far]

/-- A variable that comes up for the first time is warned of if its address is past the end, and
only then. -/
theorem pastEnd_mem_notices_iff {tokens : List Token}
    (found : (past, ⟨line, .address operand⟩) ∈ withPast (commands tokens))
    (fresh : operand ∉ operands past) (new : isVariable (known? tokens) operand = true) :
    .variablePastEnd line operand ∈ notices tokens ↔
      maxAddress < variableAddress (known? tokens) past operand := by
  -- Wherever the operand comes up, it has the address of the whole program.
  have settled (before : List Command)
      (found : (before, ⟨line, .address operand⟩) ∈ withPast (commands tokens)) :
      variableAddress (known? tokens) before operand =
        variableAddress (known? tokens) (commands tokens) operand := by
    obtain ⟨rest, split⟩ := mem_withPast.1 found
    rw [split, variableAddress, variableAddress, earlierVariables_append_cons]
  constructor
  · intro said
    rcases mem_notices_iff.1 said with ⟨p, -, said⟩ | same | ⟨p, found', said⟩ | same
    · exact absurd said (not_pastEnd_mem_tokenNotices p.1 p.2)
    · contradiction
    · obtain ⟨before, command⟩ := p
      obtain ⟨rfl, far⟩ := command_of_pastEnd said
      rw [settled past found, ← settled before found']
      exact far
    · contradiction
  · intro far
    have said := pastEnd_mem_operandNotices line new fresh far
    exact mem_notices_iff.2 (Or.inr (Or.inr (Or.inl ⟨_, found, said⟩)))

/-- The counter is past the end of the addresses until it wraps around. -/
theorem maxAddress_lt_ofNat_iff (count : Nat) :
    maxAddress < UInt16.ofNat (16 + count) ↔
      32752 ≤ count % 65536 ∧ count % 65536 < 65520 := by
  rw [UInt16.lt_iff_toNat_lt, UInt16.toNat_ofNat', toNat_maxAddress]
  omega

/-- The counter before a new variable shows how many variables there are. -/
theorem maxAddress_lt_variableAddress_iff (fresh : operand ∉ operands past) :
    maxAddress < variableAddress names past operand ↔
      32752 ≤ (variableNames names past).card % 65536 ∧
        (variableNames names past).card % 65536 < 65520 := by
  rw [variableAddress, earlierVariables_of_notMem fresh, maxAddress_lt_ofNat_iff]

theorem pastEnd_record_mem_trail_iff {source : String} :
    (Notice.variablePastEnd line operand).record ∈
        (assemble .lenient source).trail.map Notice.record ↔
      .variablePastEnd line operand ∈ notices (Token.ofSource source) := by
  rw [trail_assemble_lenient]
  constructor
  · intro said
    obtain ⟨notice, said, same⟩ := List.mem_map.1 said
    rwa [← Notice.eq_variablePastEnd_of_record_eq same]
  · exact List.mem_map_of_mem

end Meaning

/-! ## Numbered variables -/

open Meaning

def numberedVariable (n : Nat) : String := "v" ++ toString n

/-- The source that loads the address of one variable after the other, each on a line of its
own. -/
def numberedProgram (count : Nat) : String :=
  Statement.source ((List.range count).map fun n => .operation (.address (numberedVariable n)))

theorem numberedVariable_injective : Function.Injective numberedVariable := by
  intro m n same
  have number := (String.append_right_inj "v").1 same
  rw [← Literal.value_toString m, number, Literal.value_toString]

theorem toList_numberedVariable (n : Nat) :
    (numberedVariable n).toList = 'v' :: (toString n).toList := by
  rw [numberedVariable, String.toList_append]
  rfl

theorem isInk_of_mem_numberedVariable {n : Nat} {c : Char}
    (found : c ∈ (numberedVariable n).toList) : Text.isInk c = true := by
  rw [toList_numberedVariable, List.mem_cons] at found
  rcases found with rfl | found
  · decide
  · exact Text.isInk_of_isDigit (Literal.isDigit_of_mem_toString found)

theorem ofSource_numberedProgram (count : Nat) :
    Token.ofSource (numberedProgram count) =
      (List.range count).map fun n => ⟨n + 1, .operation (.address (numberedVariable n))⟩ := by
  have placed : (List.range count).zipIdx 1 = (List.range count).map fun n => (n, n + 1) := by
    apply List.ext_getElem
    · simp
    · intro i _ _
      simp [Nat.add_comm]
  rw [numberedProgram, Token.ofSource_source, List.zipIdx_map, placed, List.map_map, List.map_map]
  · rfl
  · intro statement found
    obtain ⟨n, -, rfl⟩ := List.mem_map.1 found
    apply Text.feed_notMem_of_isInk
    intro c inside
    have char : c = '@' ∨ c ∈ (numberedVariable n).toList := by
      simpa [Statement.text, Operation.text] using inside
    rcases char with rfl | inside
    · decide
    · exact isInk_of_mem_numberedVariable inside
  · intro statement found
    obtain ⟨n, -, rfl⟩ := List.mem_map.1 found
    exact Statement.ofLine?_address fun c inside => isInk_of_mem_numberedVariable inside

theorem commands_numberedProgram (count : Nat) :
    commands (Token.ofSource (numberedProgram count)) =
      (List.range count).map fun n => ⟨n + 1, .address (numberedVariable n)⟩ := by
  rw [ofSource_numberedProgram, commands, List.filterMap_map,
    List.filterMap_eq_map_iff_forall_eq_some]
  intro n _
  rfl

theorem operands_numberedProgram (count : Nat) :
    operands (commands (Token.ofSource (numberedProgram count))) =
      (List.range count).map numberedVariable := by
  rw [commands_numberedProgram, operands, List.filterMap_map,
    List.filterMap_eq_map_iff_forall_eq_some]
  intro n _
  rfl

theorem isVariable_numberedVariable (count n : Nat) :
    isVariable (known? (Token.ofSource (numberedProgram count))) (numberedVariable n) = true := by
  have numeral : Literal.isNumeral (numberedVariable n) = false := by
    rw [Literal.isNumeral, toList_numberedVariable]
    rfl
  have free : reservedNames.lookup (numberedVariable n) = none := by
    have heads : ∀ entry ∈ reservedNames, entry.1.toList.head? ≠ some 'v' := by decide
    rw [List.lookup_eq_none_iff]
    intro entry found
    apply bne_iff_ne.2
    intro same
    apply heads entry found
    rw [← same, toList_numberedVariable, List.head?_cons]
  have undeclared : numberedVariable n ∉
      (declarations (Token.ofSource (numberedProgram count))).map Prod.fst := by
    intro declared
    obtain ⟨declaration, member, -⟩ := List.mem_map.1 declared
    obtain ⟨past, line, found, -⟩ := exists_past_of_mem_declarations member
    have label := mem_of_mem_withPast found
    rw [ofSource_numberedProgram] at label
    obtain ⟨m, -, same⟩ := List.mem_map.1 label
    simp at same
  have unknown := (isSome_known?_iff (Token.ofSource (numberedProgram count))
    (numberedVariable n)).not.2 (by simp [free, undeclared])
  exact isVariable_iff.2 ⟨numeral, by simpa using unknown⟩

/-- The last variable of a numbered program comes up after all others. -/
theorem mem_withPast_numberedProgram (count : Nat) :
    (commands (Token.ofSource (numberedProgram count)),
        ⟨count + 1, .address (numberedVariable count)⟩) ∈
      withPast (commands (Token.ofSource (numberedProgram (count + 1)))) := by
  rw [mem_withPast]
  refine ⟨[], ?_⟩
  rw [commands_numberedProgram, commands_numberedProgram, List.range_succ, List.map_append,
    List.map_singleton]

theorem numberedVariable_notMem (count : Nat) :
    numberedVariable count ∉ operands (commands (Token.ofSource (numberedProgram count))) := by
  rw [operands_numberedProgram]
  intro found
  obtain ⟨n, inside, same⟩ := List.mem_map.1 found
  obtain rfl := numberedVariable_injective same
  exact absurd (List.mem_range.1 inside) (Nat.lt_irrefl n)

theorem card_variableNames_numberedProgram (count total : Nat) :
    (variableNames (known? (Token.ofSource (numberedProgram total)))
      (commands (Token.ofSource (numberedProgram count)))).card = count := by
  have all : ((List.range count).map numberedVariable).filter
      (isVariable (known? (Token.ofSource (numberedProgram total)))) =
        (List.range count).map numberedVariable := by
    rw [List.filter_eq_self]
    intro name found
    obtain ⟨n, -, rfl⟩ := List.mem_map.1 found
    exact isVariable_numberedVariable total n
  rw [variableNames, operands_numberedProgram, all, List.toFinset_card_of_nodup, List.length_map,
    List.length_range]
  exact List.nodup_range.map numberedVariable_injective

/-! ## Results -/

/-- Lenient mode warns of a variable past the end of the addresses, where it comes up first, if
the number of variables before it says so after cutting it to sixteen bits, and only then. -/
theorem warned_pastEnd_iff {source : String} {past : List Command} {line : Nat} {operand : String}
    (found : (past, ⟨line, .address operand⟩) ∈ withPast (commands (Token.ofSource source)))
    (fresh : operand ∉ operands past)
    (new : isVariable (known? (Token.ofSource source)) operand = true) :
    (Notice.variablePastEnd line operand).record ∈
        (assemble .lenient source).trail.map Notice.record ↔
      32752 ≤ (variableNames (known? (Token.ofSource source)) past).card % 65536 ∧
        (variableNames (known? (Token.ofSource source)) past).card % 65536 < 65520 := by
  rw [pastEnd_record_mem_trail_iff, pastEnd_mem_notices_iff found fresh new]
  exact maxAddress_lt_variableAddress_iff fresh

/-- The first variable without room is warned of. -/
theorem warned_pastEnd_iff_first :
    (Notice.variablePastEnd 32753 (numberedVariable 32752)).record ∈
      (assemble .lenient (numberedProgram 32753)).trail.map Notice.record := by
  refine (warned_pastEnd_iff (mem_withPast_numberedProgram 32752) (numberedVariable_notMem 32752)
    (isVariable_numberedVariable 32753 32752)).2 ?_
  rw [card_variableNames_numberedProgram]
  decide

/-- The variable for which the counter shows zero again is not warned of. -/
theorem unwarned_after_wraparound :
    ∃ past : List Command,
      (past, ⟨65521, .address (numberedVariable 65520)⟩) ∈
        withPast (commands (Token.ofSource (numberedProgram 65521))) ∧
      numberedVariable 65520 ∉ operands past ∧
      isVariable (known? (Token.ofSource (numberedProgram 65521))) (numberedVariable 65520) = true ∧
      32752 ≤ (variableNames (known? (Token.ofSource (numberedProgram 65521))) past).card ∧
      (Notice.variablePastEnd 65521 (numberedVariable 65520)).record ∉
        (assemble .lenient (numberedProgram 65521)).trail.map Notice.record := by
  have found := mem_withPast_numberedProgram 65520
  have fresh := numberedVariable_notMem 65520
  have new := isVariable_numberedVariable 65521 65520
  have count := card_variableNames_numberedProgram 65520 65521
  refine ⟨_, found, fresh, new, ?_, ?_⟩
  · rw [count]
    decide
  · rw [pastEnd_record_mem_trail_iff, pastEnd_mem_notices_iff found fresh new,
      maxAddress_lt_variableAddress_iff fresh, count]
    decide

end HackAssembler
