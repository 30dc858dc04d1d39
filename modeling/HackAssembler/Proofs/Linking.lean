import HackAssembler.Proofs.Formatting

/-!
# Programs put together

When a program is put behind another one and the two share no symbols, the code of the first one is
left alone, and the code of the second one is relocated: its labels move by the number of operations
in front, its variables by the number of variables in front, and nothing else moves. That is so
because a name of either program stands in both together for what it stood for alone, once it is
moved; the reserved names belong to both and are declared by neither.
-/

set_option autoImplicit false

namespace HackAssembler

namespace Meaning

/-- The names that are declared as labels or used as operands. -/
def mentioned (tokens : List Token) : List String :=
  (declarations tokens).map Prod.fst ++ operands (commands tokens)

/-- Two programs that share no symbols: neither declares a reserved name, and what both of them
mention is reserved or a numeral. -/
structure Separate (first second : List Token) : Prop where
  unreserved : ∀ declaration ∈ declarations first, reservedNames.lookup declaration.1 = none
  unreserved' : ∀ declaration ∈ declarations second, reservedNames.lookup declaration.1 = none
  apart : ∀ name ∈ mentioned first, name ∈ mentioned second →
    (reservedNames.lookup name).isSome ∨ Literal.isNumeral name = true

/-- How far the word of an operation is moved when its program is put behind another one. -/
def shift (first second : List Token) : Operation → Word
  | .address operand =>
    if Literal.isNumeral operand then 0
    else if (labelPlace? second operand).isSome then UInt16.ofNat (commands first).length
    else if isVariable (known? second) operand then
      UInt16.ofNat (variableNames (known? first) (commands first)).card
    else 0
  | .compute _ => 0

variable {first second : List Token} {name operand : String}

/-! ## Names -/

theorem commands_append (first second : List Token) :
    commands (first ++ second) = commands first ++ commands second :=
  List.filterMap_append ..

theorem declarations_append (first second : List Token) :
    declarations (first ++ second) = declarations first ++
      (declarations second).map fun declaration =>
        (declaration.1, (commands first).length + declaration.2) := by
  simp only [declarations, withPast_append, List.filterMap_append, List.filterMap_map,
    List.map_filterMap]
  congr 2
  funext p
  obtain ⟨past, line, statement⟩ := p
  cases statement <;> simp [commands_append]

theorem labelPlace?_append (first second : List Token) (name : String) :
    labelPlace? (first ++ second) name =
      ((labelPlace? second name).map ((commands first).length + ·)).or
        (labelPlace? first name) := by
  have lookup_map (declarations : List (String × Nat)) :
      (declarations.map fun declaration =>
        (declaration.1, (commands first).length + declaration.2)).lookup name =
      (declarations.lookup name).map ((commands first).length + ·) := by
    induction declarations with
    | nil => rfl
    | cons declaration rest ih =>
      rw [List.map_cons, List.lookup_cons, List.lookup_cons, ih]
      cases name == declaration.1 <;> rfl
  rw [labelPlace?, declarations_append, List.reverse_append, List.lookup_append, ← List.map_reverse,
    lookup_map, labelPlace?, labelPlace?]

theorem known?_append_left (undeclared : labelPlace? second name = none) :
    known? (first ++ second) name = known? first name := by
  rw [known?, labelPlace?_append, undeclared, Option.map_none, Option.none_or, known?]

theorem known?_append_right (undeclared : labelPlace? first name = none) :
    known? (first ++ second) name =
      ((labelPlace? second name).map fun place =>
        UInt16.ofNat ((commands first).length + place)).or (reservedNames.lookup name) := by
  rw [known?, labelPlace?_append, undeclared, Option.or_none, Option.map_map]
  rfl

namespace Separate

theorem symm (separate : Separate first second) : Separate second first where
  unreserved := separate.unreserved'
  unreserved' := separate.unreserved
  apart name mentioned mentioned' := separate.apart name mentioned' mentioned

/-- A symbol that one program uses is not declared by the other one. -/
theorem undeclared (separate : Separate first second)
    (used : operand ∈ operands (commands first)) (symbol : Literal.isNumeral operand = false) :
    labelPlace? second operand = none := by
  rw [labelPlace?_eq_none_iff]
  intro declared
  rcases separate.apart operand (List.mem_append_right _ used) (List.mem_append_left _ declared)
    with reserved | numeral
  · obtain ⟨declaration, found, rfl⟩ := List.mem_map.1 declared
    rw [separate.unreserved' declaration found] at reserved
    contradiction
  · rw [symbol] at numeral
    contradiction

theorem known?_left (separate : Separate first second) : ∀ operand ∈ operands (commands first),
    Literal.isNumeral operand = false → known? (first ++ second) operand = known? first operand :=
  fun _ used symbol => known?_append_left (separate.undeclared used symbol)

theorem isVariable_left (separate : Separate first second)
    (used : operand ∈ operands (commands first)) :
    isVariable (known? (first ++ second)) operand = isVariable (known? first) operand :=
  isVariable_congr (separate.known?_left operand used)

theorem isVariable_right (separate : Separate first second)
    (used : operand ∈ operands (commands second)) :
    isVariable (known? (first ++ second)) operand = isVariable (known? second) operand := by
  cases symbol : Literal.isNumeral operand with
  | true => simp [isVariable, symbol]
  | false =>
    rw [isVariable, known?_append_right (separate.symm.undeclared used symbol), isVariable, known?]
    cases labelPlace? second operand <;> rfl

/-- No variable of one program comes up in the other one. -/
theorem not_mem_operands (separate : Separate first second)
    (new : isVariable (known? second) operand = true)
    (used : operand ∈ operands (commands second)) : operand ∉ operands (commands first) := by
  intro shared
  obtain ⟨symbol, unknown⟩ := isVariable_iff.1 new
  rw [known?, Option.or_eq_none_iff] at unknown
  rcases separate.apart operand (List.mem_append_right _ shared) (List.mem_append_right _ used)
    with reserved | numeral
  · rw [unknown.2] at reserved
    contradiction
  · rw [symbol] at numeral
    contradiction

/-! ## Code -/

/-- In front of a variable of the second program come all variables of the first one. -/
theorem card_earlierVariables (separate : Separate first second)
    (used : operand ∈ operands (commands second))
    (new : isVariable (known? second) operand = true) :
    (earlierVariables (known? (first ++ second)) (commands first ++ commands second)
        operand).card =
      (variableNames (known? first) (commands first)).card +
        (earlierVariables (known? second) (commands second) operand).card := by
  have fresh := separate.not_mem_operands new used
  have apart : Disjoint (variableNames (known? first) (commands first))
      (earlierVariables (known? second) (commands second) operand) := by
    rw [Finset.disjoint_left]
    intro other before behind
    obtain ⟨used, new⟩ := mem_variableNames.1 (earlierVariables_subset _ _ _ behind)
    exact separate.not_mem_operands new used (mem_variableNames.1 before).1
  rw [earlierVariables_append_of_notMem fresh,
    variableNames_congr fun _ found => separate.isVariable_left found,
    earlierVariables_congr fun _ found => separate.isVariable_right found,
    Finset.card_union_of_disjoint apart]

theorem operandAddress_right (separate : Separate first second)
    (used : operand ∈ operands (commands second)) :
    operandAddress (known? (first ++ second)) (commands (first ++ second)) operand =
      operandAddress (known? second) (commands second) operand +
        shift first second (.address operand) := by
  cases symbol : Literal.isNumeral operand with
  | true => simp [operandAddress, shift, symbol]
  | false =>
    have linked : known? (first ++ second) operand = _ :=
      known?_append_right (separate.symm.undeclared used symbol)
    have alone : known? second operand = ((labelPlace? second operand).map UInt16.ofNat).or
        (reservedNames.lookup operand) := rfl
    cases placed : labelPlace? second operand with
    | some place =>
      rw [placed] at linked alone
      simp [operandAddress, shift, symbol, linked, alone, placed, UInt16.add_comm]
    | none =>
      rw [placed] at linked alone
      cases reserved : reservedNames.lookup operand with
      | some address =>
        rw [reserved] at linked alone
        simp [operandAddress, shift, isVariable, symbol, linked, alone, placed]
      | none =>
        rw [reserved] at linked alone
        have new : isVariable (known? second) operand = true := isVariable_iff.2 ⟨symbol, alone⟩
        have count := separate.card_earlierVariables used new
        rw [← commands_append] at count
        have address : variableAddress (known? (first ++ second)) (commands (first ++ second))
            operand = variableAddress (known? second) (commands second) operand +
              UInt16.ofNat (variableNames (known? first) (commands first)).card := by
          rw [variableAddress, variableAddress, count, ← UInt16.ofNat_add, Nat.add_right_comm,
            Nat.add_assoc]
        simp [operandAddress, shift, symbol, linked, alone, placed, new, address]

theorem code_append (separate : Separate first second) :
    (listing (first ++ second)).code = (listing first).code ++
      List.zipWith (· + ·) (listing second).code
        ((commands second).map fun command => shift first second command.item) := by
  have left (command : Command) (found : command ∈ commands first) :
      (instruction (known? (first ++ second)) (commands (first ++ second)) command.item).encode =
        (instruction (known? first) (commands first) command.item).encode := by
    rw [commands_append, instruction_append_congr separate.known?_left found]
  have right (command : Command) (found : command ∈ commands second) :
      (instruction (known? (first ++ second)) (commands (first ++ second)) command.item).encode =
        (instruction (known? second) (commands second) command.item).encode +
          shift first second command.item := by
    obtain ⟨line, op⟩ := command
    cases op with
    | address operand => exact separate.operandAddress_right (mem_operands_iff.2 ⟨line, found⟩)
    | compute text => exact (UInt16.add_zero _).symm
  rw [code_listing, code_listing, code_listing, List.zipWith_map, List.zipWith_self]
  nth_rewrite 2 [commands_append]
  rw [List.map_append, List.map_congr_left left, List.map_congr_left right]

end Separate

end Meaning

open Meaning

/-! ## Sources -/

/-- Behind a line feed a source says what it says alone. -/
theorem Token.map_item_ofSource_append (first second : String) :
    (ofSource (first ++ "\n" ++ second)).map Located.item =
      (ofSource first ++ ofSource second).map Located.item := by
  rw [ofSource_append_feed, List.map_append, List.map_map, Located.item_comp_moved, List.map_append]

/-- Lenient mode assembles two sources with a line feed between them to the words of the first one
and then the words of the second one, relocated, if the two share no symbols. -/
theorem words_of_linked_sources {first second : String}
    (separate : Separate (Token.ofSource first) (Token.ofSource second)) :
    ∃ before behind linked, (assemble .lenient first).outcome = .ok before ∧
      (assemble .lenient second).outcome = .ok behind ∧
      (assemble .lenient (first ++ "\n" ++ second)).outcome = .ok linked ∧
      linked.words = before.words ++ (List.zipWith (· + ·) behind.code
        ((commands (Token.ofSource second)).map fun command =>
          shift (Token.ofSource first) (Token.ofSource second) command.item)).map Word.text := by
  have told := (sameButLines_listing (Token.map_item_ofSource_append first second)).code
  refine ⟨_, _, _, congrArg Traced.outcome (assemble_lenient first),
    congrArg Traced.outcome (assemble_lenient second),
    congrArg Traced.outcome (assemble_lenient (first ++ "\n" ++ second)), ?_⟩
  rw [Listing.words_eq, told, separate.code_append, List.map_append, ← Listing.words_eq]

/-- The sources share a reserved name and a numeral; a label and a variable of the second one are
moved. -/
theorem words_of_linked_sources_loops :
    ∃ before behind linked, (assemble .lenient "(LOOP)\n@i\n@LOOP\n@5").outcome = .ok before ∧
      (assemble .lenient "@END\n@j\n@SP\n@5\n(END)\nD=M").outcome = .ok behind ∧
      (assemble .lenient ("(LOOP)\n@i\n@LOOP\n@5" ++ "\n" ++
        "@END\n@j\n@SP\n@5\n(END)\nD=M")).outcome = .ok linked ∧
      behind.code = [4, 16, 0, 5, 0xFC10] ∧
      linked.words = before.words ++ [7, 17, 0, 5, 0xFC10].map Word.text := by
  have separate : Separate (Token.ofSource "(LOOP)\n@i\n@LOOP\n@5")
      (Token.ofSource "@END\n@j\n@SP\n@5\n(END)\nD=M") :=
    ⟨by decide +kernel, by decide +kernel, by decide +kernel⟩
  obtain ⟨before, behind, linked, runs, runs', together, words⟩ := words_of_linked_sources separate
  have alone : (assemble .lenient "@END\n@j\n@SP\n@5\n(END)\nD=M").outcome =
      .ok ⟨[⟨0, 1, "@END", .address 4⟩, ⟨1, 2, "@j", .address 16⟩, ⟨2, 3, "@SP", .address 0⟩,
        ⟨3, 4, "@5", .address 5⟩, ⟨4, 6, "D=M", .compute 0b010 0b1110000 0⟩]⟩ := by
    decide +kernel
  have shifts : (commands (Token.ofSource "@END\n@j\n@SP\n@5\n(END)\nD=M")).map
      (fun command => shift (Token.ofSource "(LOOP)\n@i\n@LOOP\n@5")
        (Token.ofSource "@END\n@j\n@SP\n@5\n(END)\nD=M") command.item) = [3, 1, 0, 0, 0] := by
    decide +kernel
  rw [alone] at runs'
  obtain rfl := Except.ok.inj runs'
  rw [shifts] at words
  exact ⟨before, _, linked, runs, alone, together, by decide, words⟩

end HackAssembler
