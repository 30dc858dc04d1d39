import HackAssembler.Proofs.Range

/-!
# What silence means

A lenient assembly that leaves no warning has changed nothing. Every operand of the program then
stands for exactly what it denotes: a numeral for its value, a label for the number of operations
before each of its declarations, a reserved name for its address, and the variables for distinct
addresses above the working registers. No number was cut to sixteen bits on the way.

For labels the reason is that a silent token never takes an address away from a name, so what a
name stands for at one place of the program it stands for at the end. For variables it is that the
counter cannot come to wrap around without a warning at the end of the addresses, which it has to
pass before.
-/

set_option autoImplicit false

namespace HackAssembler

namespace Meaning

/-- No notice is a warning. -/
def Quiet (notices : List Notice) : Prop := ∀ notice ∈ notices, notice.severity ≠ .warn

theorem quiet_notices {tokens : List Token} (quiet : Quiet (notices tokens)) :
    (∀ p ∈ withPast tokens, Quiet (tokenNotices p.1 p.2)) ∧
      ∀ p ∈ withPast (commands tokens), Quiet (commandNotices (known? tokens) p.1 p.2) := by
  constructor
  · intro p found notice said
    exact quiet notice (mem_notices_iff.2 (Or.inl ⟨p, found, said⟩))
  · intro p found notice said
    exact quiet notice (mem_notices_iff.2 (Or.inr (Or.inr (Or.inl ⟨p, found, said⟩))))

/-! ## Labels -/

section Labels

variable {tokens past : List Token} {line : Nat} {name : String} {address : Word}

theorem fits_of_quiet (quiet : Quiet (labelNotices past line name)) :
    (commands past).length ≤ 32767 := by
  by_contra far
  apply quiet (.labelPastEnd line name (commands past).length)
  · simp [labelNotices, Nat.not_le.1 far]
  · rfl

theorem eq_place_of_quiet (quiet : Quiet (labelNotices past line name))
    (known : known? past name = some address) :
    address = UInt16.ofNat (commands past).length := by
  by_contra other
  apply quiet (.labelMoved line name address (UInt16.ofNat (commands past).length))
  · simp [labelNotices, placement, known, other]
  · rfl

/-- A token that is taken in silently takes no address away from a name. -/
theorem known?_concat_of_quiet {token : Token} (quiet : Quiet (tokenNotices past token))
    (known : known? past name = some address) :
    known? (past ++ [token]) name = some address := by
  obtain ⟨line, statement⟩ := token
  cases statement with
  | operation op => rwa [known?_concat_operation]
  | label declared =>
    rw [known?_concat_label]
    by_cases this : declared = name
    · subst this
      rw [if_pos rfl, eq_place_of_quiet quiet known]
    · rwa [if_neg this]

/-- In a silent program names keep the addresses that they once stand for. -/
theorem known?_append_of_quiet {rest : List Token}
    (quiet : ∀ p ∈ withPast (past ++ rest), Quiet (tokenNotices p.1 p.2))
    (known : known? past name = some address) :
    known? (past ++ rest) name = some address := by
  induction rest using List.reverseRecOn with
  | nil => rwa [List.append_nil]
  | append_singleton rest last ih =>
    rw [← List.append_assoc] at quiet ⊢
    apply known?_concat_of_quiet (quiet (past ++ rest, last) (mem_withPast.2 ⟨[], rfl⟩))
    apply ih
    intro p found
    exact quiet p (mem_withPast_append found [last])

theorem known?_of_declared {place : Nat}
    (quiet : ∀ p ∈ withPast tokens, Quiet (tokenNotices p.1 p.2))
    (declared : (name, place) ∈ declarations tokens) :
    place ≤ 32767 ∧ known? tokens name = some (UInt16.ofNat place) := by
  obtain ⟨past, line, found, rfl⟩ := exists_past_of_mem_declarations declared
  obtain ⟨rest, split⟩ := mem_withPast.1 found
  refine ⟨fits_of_quiet (quiet _ found), ?_⟩
  have here : known? (past ++ [⟨line, .label name⟩]) name =
      some (UInt16.ofNat (commands past).length) := by
    rw [known?_concat_label, if_pos rfl]
  rw [split, ← List.singleton_append, ← List.append_assoc] at quiet ⊢
  exact known?_append_of_quiet quiet here

theorem known?_of_reserved (quiet : ∀ p ∈ withPast tokens, Quiet (tokenNotices p.1 p.2))
    (reserved : reservedNames.lookup name = some address) :
    known? tokens name = some address := by
  have start : known? [] name = some address := by
    rw [← reserved]
    rfl
  have kept : known? ([] ++ tokens) name = some address := known?_append_of_quiet quiet start
  exact kept

theorem known?_le_of_quiet (quiet : ∀ p ∈ withPast tokens, Quiet (tokenNotices p.1 p.2))
    (known : known? tokens name = some address) : address ≤ maxAddress := by
  have stands : (known? tokens name).isSome := by rw [known, Option.isSome_some]
  rcases (isSome_known?_iff tokens name).1 stands with reserved | declared
  · obtain ⟨own, reserved⟩ := Option.isSome_iff_exists.1 reserved
    obtain rfl : own = address := by
      rw [known?_of_reserved quiet reserved] at known
      exact Option.some.inj known
    exact reserved_le reserved
  · obtain ⟨⟨_, place⟩, member, rfl⟩ := List.mem_map.1 declared
    obtain ⟨fits, placed⟩ := known?_of_declared quiet member
    obtain rfl : UInt16.ofNat place = address := by
      rw [placed] at known
      exact Option.some.inj known
    exact (ofNat_le_maxAddress_iff (by omega)).2 fits

end Labels

/-! ## Operands -/

section Operands

variable {names : Names} {commands past : List Command} {line : Nat} {operand other : String}

theorem value_le_of_quiet (quiet : Quiet (operandNotices names past line operand))
    (numeral : Literal.isNumeral operand = true) : Literal.value operand ≤ 32767 := by
  by_contra large
  apply quiet (.literalCut line operand (UInt16.ofNat (Literal.value operand)))
  · simp [operandNotices, numeral, Nat.not_le.1 large]
  · rfl

theorem variableAddress_le_of_quiet (quiet : Quiet (operandNotices names past line operand))
    (new : isVariable names operand = true) (fresh : operand ∉ operands past) :
    variableAddress names past operand ≤ maxAddress := by
  have name := (isVariable_iff.1 new).1
  by_contra far
  apply quiet (.variablePastEnd line operand)
  · simp [operandNotices, name, new, fresh, UInt16.not_le.1 far]
  · rfl

theorem unknownMnemonics_of_quiet {text : String}
    (quiet : Quiet (commandNotices names past ⟨line, .compute text⟩)) :
    unknownMnemonics text = [] := by
  rw [List.eq_nil_iff_forall_not_mem]
  intro unknown found
  apply quiet (.mnemonicReplaced line unknown.1 unknown.2)
  · exact List.mem_map.2 ⟨unknown, found, rfl⟩
  · rfl

/-- A new variable that comes up silently finds room, as long as the counter is not past the end
of the addresses. -/
theorem card_variableNames_lt_of_quiet (few : (variableNames names past).card ≤ variableRoom)
    (quiet : Quiet (operandNotices names past line operand))
    (new : isVariable names operand = true) (fresh : operand ∉ operands past) :
    (variableNames names past).card < variableRoom := by
  have fits := variableAddress_le_of_quiet quiet new fresh
  unfold variableRoom at few ⊢
  rw [variableAddress, earlierVariables_of_notMem fresh, ofNat_le_maxAddress_iff (by omega)] at fits
  omega

theorem card_variableNames_le_of_quiet
    (quiet : ∀ p ∈ withPast commands, Quiet (commandNotices names p.1 p.2)) :
    (variableNames names commands).card ≤ variableRoom := by
  apply card_variableNames_le_of_room
  intro past line operand found few new fresh
  exact card_variableNames_lt_of_quiet few (quiet _ found) new fresh

theorem card_earlierVariables_lt_of_quiet
    (quiet : ∀ p ∈ withPast commands, Quiet (commandNotices names p.1 p.2))
    (found : operand ∈ operands commands) (new : isVariable names operand = true) :
    (earlierVariables names commands operand).card < variableRoom := by
  obtain ⟨past, line, member, fresh⟩ := exists_first_of_mem_operands found
  have few : (variableNames names past).card ≤ variableRoom := by
    apply card_variableNames_le_of_quiet
    intro p before
    exact quiet p (mem_withPast_of_mem_past member before)
  rw [earlierVariables_of_first member fresh]
  exact card_variableNames_lt_of_quiet few (quiet _ member) new fresh

/-- Behind a variable that comes up first there are more variables than before it. -/
theorem card_variableNames_lt_of_first {later : List Command}
    (found : (past, ⟨line, .address operand⟩) ∈ withPast later) (fresh : operand ∉ operands past)
    (new : isVariable names operand = true) :
    (variableNames names past).card < (variableNames names later).card := by
  obtain ⟨rest, rfl⟩ := mem_withPast.1 found
  apply Finset.card_lt_card
  rw [Finset.ssubset_iff_of_subset]
  · refine ⟨operand, mem_variableNames.2 ⟨by simp [operands], new⟩, ?_⟩
    intro met
    exact fresh (mem_variableNames.1 met).1
  · intro name met
    obtain ⟨found, new⟩ := mem_variableNames.1 met
    refine mem_variableNames.2 ⟨?_, new⟩
    rw [operands_append, List.mem_append]
    exact Or.inl found

/-- Two variables have different numbers of variables before them. -/
theorem eq_of_card_earlierVariables_eq (found : operand ∈ operands commands)
    (found' : other ∈ operands commands) (new : isVariable names operand = true)
    (new' : isVariable names other = true)
    (same : (earlierVariables names commands operand).card =
      (earlierVariables names commands other).card) : operand = other := by
  obtain ⟨past, line, member, fresh⟩ := exists_first_of_mem_operands found
  obtain ⟨past', line', member', fresh'⟩ := exists_first_of_mem_operands found'
  rw [earlierVariables_of_first member fresh, earlierVariables_of_first member' fresh'] at same
  rcases withPast_total member member' with ⟨-, together⟩ | before | behind
  · exact Operation.address.inj (congrArg Located.item together)
  · have fewer := card_variableNames_lt_of_first before fresh new
    omega
  · have more := card_variableNames_lt_of_first behind fresh' new'
    omega

end Operands

/-! ## Listings -/

variable {tokens : List Token} {word : Word} {operand name : String} {address : Word}

/-- An entry of the listing and the command that it was made for. -/
def Encodes (tokens : List Token) (listing : Listing) (entry : Entry) (command : Command) : Prop :=
  (entry, command) ∈ listing.entries.zip (commands tokens)

/-- The listing has the word at a place where the program has the operand. -/
def StandsFor (tokens : List Token) (listing : Listing) (word : Word) (operand : String) : Prop :=
  ∃ entry line, Encodes tokens listing entry ⟨line, .address operand⟩ ∧
    entry.instruction = .address word

/-- A listing in which nothing was substituted, cut or moved. -/
structure IsFaithful (tokens : List Token) (listing : Listing) : Prop where
  size : listing.size = (commands tokens).length
  range : ∀ entry ∈ listing.entries, ∀ value, entry.instruction = .address value →
    value ≤ maxAddress
  operand : ∀ entry line name, Encodes tokens listing entry ⟨line, .address name⟩ →
    ∃ word, entry.instruction = .address word
  numeral : ∀ word text, StandsFor tokens listing word text → Literal.isNumeral text = true →
    word.toNat = Literal.value text
  label : ∀ word name place, StandsFor tokens listing word name →
    Literal.isNumeral name = false → (name, place) ∈ declarations tokens → word.toNat = place
  reserved : ∀ word name address, StandsFor tokens listing word name →
    reservedNames.lookup name = some address → word = address
  variable_range : ∀ word name, StandsFor tokens listing word name →
    isVariable (known? tokens) name = true → 16 ≤ word ∧ word ≤ maxAddress
  variable_distinct : ∀ word name other, StandsFor tokens listing word name →
    StandsFor tokens listing word other → isVariable (known? tokens) name = true →
    isVariable (known? tokens) other = true → name = other
  computation : ∀ entry line text, Encodes tokens listing entry ⟨line, .compute text⟩ →
    ∃ dest comp jump, entry.instruction = .compute dest comp jump ∧
      Field.dest.bits? (Mnemonics.ofText text).dest = some dest ∧
      Field.comp.bits? (Mnemonics.ofText text).comp = some comp ∧
      Field.jump.bits? (Mnemonics.ofText text).jump = some jump

theorem zip_entries_commands (tokens : List Token) :
    (listing tokens).entries.zip (commands tokens) = (commands tokens).zipIdx.map
      fun placed => (Meaning.entry (known? tokens) (commands tokens) placed, placed.1) := by
  rw [← List.zip_map', List.zipIdx_map_fst, listing]

theorem encodes_of_mem_zipIdx {placed : Command × Nat} (found : placed ∈ (commands tokens).zipIdx) :
    Encodes tokens (listing tokens) (Meaning.entry (known? tokens) (commands tokens) placed)
      placed.1 := by
  rw [Encodes, zip_entries_commands]
  exact List.mem_map_of_mem found

theorem encodes_listing {entry : Entry} {command : Command}
    (encodes : Encodes tokens (listing tokens) entry command) :
    command ∈ commands tokens ∧
      entry.instruction = instruction (known? tokens) (commands tokens) command.item := by
  rw [Encodes, zip_entries_commands] at encodes
  obtain ⟨placed, found, same⟩ := List.mem_map.1 encodes
  obtain ⟨rfl, rfl⟩ := Prod.mk.inj same
  exact ⟨List.fst_mem_of_mem_zipIdx found, rfl⟩

theorem standsFor_listing (stands : StandsFor tokens (listing tokens) word operand) :
    operand ∈ operands (commands tokens) ∧
      word = operandAddress (known? tokens) (commands tokens) operand := by
  obtain ⟨entry, line, encodes, loads⟩ := stands
  obtain ⟨found, stated⟩ := encodes_listing encodes
  refine ⟨mem_operands_iff.2 ⟨line, found⟩, ?_⟩
  rw [loads] at stated
  exact Instruction.address.inj stated

theorem isNumeral_of_reserved (reserved : reservedNames.lookup name = some address) :
    Literal.isNumeral name = false := by
  have names : ∀ entry ∈ reservedNames, Literal.isNumeral entry.1 = false := by decide
  exact names (name, address) (mem_of_lookup_eq_some reserved)

theorem operandAddress_of_known (numeral : Literal.isNumeral operand = false)
    (known : known? tokens operand = some address) :
    operandAddress (known? tokens) (commands tokens) operand = address := by
  simp [operandAddress, numeral, known]

theorem operandAddress_of_isVariable {names : Names} {commands : List Command}
    (new : isVariable names operand = true) :
    operandAddress names commands operand = variableAddress names commands operand := by
  obtain ⟨numeral, unknown⟩ := isVariable_iff.1 new
  simp [operandAddress, numeral, unknown]

/-- The exact number that a variable stands for in a silent program. -/
theorem toNat_variableAddress_of_quiet (quiet : Quiet (notices tokens))
    (found : operand ∈ operands (commands tokens))
    (new : isVariable (known? tokens) operand = true) :
    (variableAddress (known? tokens) (commands tokens) operand).toNat =
        16 + (earlierVariables (known? tokens) (commands tokens) operand).card ∧
      variableAddress (known? tokens) (commands tokens) operand ≤ maxAddress := by
  have few := card_earlierVariables_lt_of_quiet (quiet_notices quiet).2 found new
  unfold variableRoom at few
  rw [variableAddress, ofNat_le_maxAddress_iff (by omega), UInt16.toNat_ofNat',
    Nat.mod_eq_of_lt (by omega)]
  omega

theorem value_le_of_quiet_notices (quiet : Quiet (notices tokens))
    (found : operand ∈ operands (commands tokens)) (numeral : Literal.isNumeral operand = true) :
    Literal.value operand ≤ 32767 := by
  obtain ⟨past, line, member, -⟩ := exists_first_of_mem_operands found
  exact value_le_of_quiet ((quiet_notices quiet).2 _ member) numeral

theorem operandAddress_le_of_quiet (quiet : Quiet (notices tokens))
    (found : operand ∈ operands (commands tokens)) :
    operandAddress (known? tokens) (commands tokens) operand ≤ maxAddress := by
  apply operandAddress_le
  · exact value_le_of_quiet_notices quiet found
  · intro address known
    exact known?_le_of_quiet (quiet_notices quiet).1 known
  · intro new
    exact (toNat_variableAddress_of_quiet quiet found new).2

/-- The listing of a silent program is faithful. -/
theorem isFaithful_listing (quiet : Quiet (notices tokens)) :
    IsFaithful tokens (listing tokens) where
  size := by simp [listing, Listing.size]
  range := by
    intro entry found value loads
    obtain ⟨⟨⟨line, operation⟩, place⟩, placed, rfl⟩ := List.mem_map.1 found
    cases operation with
    | compute text => contradiction
    | address operand =>
      have comesUp : operand ∈ operands (commands tokens) :=
        List.mem_filterMap.2 ⟨_, List.fst_mem_of_mem_zipIdx placed, rfl⟩
      rw [← Instruction.address.inj loads]
      exact operandAddress_le_of_quiet quiet comesUp
  operand := by
    intro entry line name encodes
    exact ⟨_, (encodes_listing encodes).2⟩
  numeral := by
    intro word text stands numeral
    obtain ⟨found, rfl⟩ := standsFor_listing stands
    have fits := value_le_of_quiet_notices quiet found numeral
    rw [operandAddress, if_pos numeral, UInt16.toNat_ofNat', Nat.mod_eq_of_lt (by omega)]
  label := by
    intro word name place stands numeral declared
    obtain ⟨-, rfl⟩ := standsFor_listing stands
    obtain ⟨fits, placed⟩ := known?_of_declared (quiet_notices quiet).1 declared
    rw [operandAddress_of_known numeral placed, UInt16.toNat_ofNat', Nat.mod_eq_of_lt (by omega)]
  reserved := by
    intro word name address stands reserved
    obtain ⟨-, rfl⟩ := standsFor_listing stands
    exact operandAddress_of_known (isNumeral_of_reserved reserved)
      (known?_of_reserved (quiet_notices quiet).1 reserved)
  variable_range := by
    intro word name stands new
    obtain ⟨found, rfl⟩ := standsFor_listing stands
    obtain ⟨number, fits⟩ := toNat_variableAddress_of_quiet quiet found new
    rw [operandAddress_of_isVariable new]
    refine ⟨?_, fits⟩
    rw [UInt16.le_iff_toNat_le, number]
    exact Nat.le_add_right 16 _
  variable_distinct := by
    intro word name other stands stands' new new'
    obtain ⟨found, rfl⟩ := standsFor_listing stands
    obtain ⟨found', same⟩ := standsFor_listing stands'
    rw [operandAddress_of_isVariable new, operandAddress_of_isVariable new'] at same
    have number := (toNat_variableAddress_of_quiet quiet found new).1
    have number' := (toNat_variableAddress_of_quiet quiet found' new').1
    apply eq_of_card_earlierVariables_eq found found' new new'
    rw [same] at number
    omega
  computation := by
    intro entry line text encodes
    obtain ⟨found, stated⟩ := encodes_listing encodes
    obtain ⟨past, member⟩ := exists_past_of_mem found
    have known := unknownMnemonics_of_quiet ((quiet_notices quiet).2 _ member)
    exact ⟨_, _, _, stated, bits?_eq_some_of_known known⟩

end Meaning

open Meaning

/-- A lenient assembly that leaves no warning is faithful to its source. -/
theorem faithful_of_silent {source : String}
    (silent : ∀ record ∈ (assemble .lenient source).trail.map Notice.record,
      record.severity ≠ .warn) :
    ∃ listing, (assemble .lenient source).outcome = .ok listing ∧
      IsFaithful (Token.ofSource source) listing := by
  refine ⟨_, congrArg Traced.outcome (assemble_lenient source), isFaithful_listing ?_⟩
  intro notice said
  apply silent notice.record
  rw [trail_assemble_lenient]
  exact List.mem_map_of_mem said

/-- A reserved name is declared at its own address and a label twice at the same place, and a
variable comes up before and after another one. -/
theorem faithful_of_silent_declared_in_place :
    (∀ record ∈ (assemble .lenient
        "(SP)\n@SP\n@i\n@END\n(END)\n(END)\n@n\n@i\nD;JMP").trail.map Notice.record,
      record.severity ≠ .warn) ∧
    IsFaithful (Token.ofSource "(SP)\n@SP\n@i\n@END\n(END)\n(END)\n@n\n@i\nD;JMP")
      ⟨[⟨0, 2, "@SP", .address 0⟩, ⟨1, 3, "@i", .address 16⟩, ⟨2, 4, "@END", .address 3⟩,
        ⟨3, 7, "@n", .address 17⟩, ⟨4, 8, "@i", .address 16⟩,
        ⟨5, 9, "D;JMP", .compute 0 0b0001100 0b111⟩]⟩ := by
  have silent : ∀ record ∈ (assemble .lenient
      "(SP)\n@SP\n@i\n@END\n(END)\n(END)\n@n\n@i\nD;JMP").trail.map Notice.record,
      record.severity ≠ .warn := by
    decide +kernel
  have assembled : (assemble .lenient
      "(SP)\n@SP\n@i\n@END\n(END)\n(END)\n@n\n@i\nD;JMP").outcome =
        .ok ⟨[⟨0, 2, "@SP", .address 0⟩, ⟨1, 3, "@i", .address 16⟩, ⟨2, 4, "@END", .address 3⟩,
          ⟨3, 7, "@n", .address 17⟩, ⟨4, 8, "@i", .address 16⟩,
          ⟨5, 9, "D;JMP", .compute 0 0b0001100 0b111⟩]⟩ := by
    decide +kernel
  obtain ⟨listing, run, faithful⟩ := faithful_of_silent silent
  rw [assembled] at run
  obtain rfl := Except.ok.inj run
  exact ⟨silent, faithful⟩

end HackAssembler
