import HackAssembler.Proofs.LabelShape
import HackAssembler.Proofs.Range

/-!
# The grammar of computations

A computation is written `[dest=]comp[;jump]`, with a mnemonic of its table for each part. Strict
mode takes the texts that are written so, and no others (`Computation.known_iff`): mnemonics hold
no separator, so the cuts at the first `=` and at the first `;` fall where the parts meet, and a
text that is put together in another way has a part that is not listed. The parts of a text are
unique, and a word tells them up to whether a part is missing or written `null`.
-/

set_option autoImplicit false

namespace HackAssembler

/-! ## Tables -/

namespace Field

variable {field : Field} {mnemonic mnemonic' : String} {bits : Word}

/-- The mnemonics of a field. -/
def mnemonics (field : Field) : List String := field.table.map Prod.fst

theorem bits?_eq_some_iff : field.bits? mnemonic = some bits ↔ (mnemonic, bits) ∈ field.table := by
  have all : ∀ entry ∈ field.table, field.bits? entry.1 = some entry.2 := by
    cases field <;> decide
  exact ⟨Meaning.mem_of_lookup_eq_some, all (mnemonic, bits)⟩

theorem bits?_eq_none_iff : field.bits? mnemonic = none ↔ mnemonic ∉ field.mnemonics := by
  rw [bits?, List.lookup_eq_none_iff, mnemonics, List.mem_map]
  constructor
  · rintro unknown ⟨entry, found, rfl⟩
    simpa using unknown entry found
  · intro absent entry found
    exact bne_iff_ne.2 fun same => absent ⟨entry, found, same.symm⟩

/-- Different mnemonics of a field have different bits. -/
theorem eq_of_mem_table (found : (mnemonic, bits) ∈ field.table)
    (found' : (mnemonic', bits) ∈ field.table) : mnemonic = mnemonic' := by
  have back : ∀ entry ∈ field.table,
      (field.table.find? fun other => other.2 == entry.2).map Prod.fst = some entry.1 := by
    cases field <;> decide
  have same : some mnemonic = some mnemonic' :=
    (back (mnemonic, bits) found).symm.trans (back (mnemonic', bits) found')
  exact Option.some.inj same

/-- Mnemonics are written without separators. -/
theorem separators_notMem (found : mnemonic ∈ field.mnemonics) :
    '=' ∉ mnemonic.toList ∧ ';' ∉ mnemonic.toList := by
  have all : ∀ mnemonic ∈ field.mnemonics, '=' ∉ mnemonic.toList ∧ ';' ∉ mnemonic.toList := by
    cases field <;> decide
  exact all mnemonic found

end Field

/-! ## Cuts -/

namespace Mnemonics

variable {text : String} {cut : Mnemonics}

/-- The text is cut at its first `=`, if it has one, and what is left at its first `;`; what is
missing is read as `null`. -/
def IsCut (cut : Mnemonics) (text : String) : Prop :=
  ∃ rest : String,
    (text = cut.dest ++ "=" ++ rest ∧ '=' ∉ cut.dest.toList ∨
      cut.dest = "null" ∧ text = rest ∧ '=' ∉ text.toList) ∧
    (rest = cut.comp ++ ";" ++ cut.jump ∧ ';' ∉ cut.comp.toList ∨
      cut.jump = "null" ∧ rest = cut.comp ∧ ';' ∉ rest.toList)

theorem isCut_ofText (text : String) : (ofText text).IsCut text := by
  obtain ⟨rest, destination, computation⟩ := ofText_cut text
  refine ⟨String.ofList rest, ?_, ?_⟩
  · rcases destination with ⟨whole, clean⟩ | ⟨absent, whole, clean⟩
    · exact Or.inl ⟨String.toList_inj.1 (by simpa using whole), clean⟩
    · exact Or.inr ⟨absent, String.toList_inj.1 (by simpa using whole), by rwa [whole]⟩
  · rcases computation with ⟨whole, clean⟩ | ⟨absent, whole, clean⟩
    · exact Or.inl ⟨String.toList_inj.1 (by simpa using whole), clean⟩
    · exact Or.inr ⟨absent, String.toList_inj.1 (by simpa using whole), by simpa using clean⟩

/-- A text is cut in one way only. -/
theorem IsCut.eq_ofText (isCut : cut.IsCut text) : cut = ofText text := by
  obtain ⟨dest, comp, jump⟩ := cut
  obtain ⟨rest, destination, computation⟩ := isCut
  have behind : Text.splitAtFirst ';' rest.toList = some (comp.toList, jump.toList) ∨
      Text.splitAtFirst ';' rest.toList = none ∧ jump = absent ∧ rest = comp := by
    rcases computation with ⟨whole, clean⟩ | ⟨missing, whole, clean⟩
    · exact Or.inl (Text.splitAtFirst_eq_some_iff.2 ⟨by simp [whole], clean⟩)
    · exact Or.inr ⟨Text.splitAtFirst_eq_none_iff.2 clean, missing, whole⟩
  rcases destination with ⟨whole, clean⟩ | ⟨missing, rfl, clean⟩
  · have front : Text.splitAtFirst '=' text.toList = some (dest.toList, rest.toList) :=
      Text.splitAtFirst_eq_some_iff.2 ⟨by simp [whole], clean⟩
    rcases behind with later | ⟨later, rfl, rfl⟩
    · simp [ofText, front, later]
    · simp [ofText, front, later]
  · have front : Text.splitAtFirst '=' text.toList = none :=
      Text.splitAtFirst_eq_none_iff.2 clean
    obtain rfl : dest = absent := missing
    rcases behind with later | ⟨later, rfl, rfl⟩
    · simp [ofText, front, later]
    · simp [ofText, front, later]

/-- The mnemonics beside their fields, in order. -/
def parts (mnemonics : Mnemonics) : List (Field × String) :=
  [(.dest, mnemonics.dest), (.comp, mnemonics.comp), (.jump, mnemonics.jump)]

theorem unknownMnemonics_eq (text : String) :
    Meaning.unknownMnemonics text =
      (ofText text).parts.filter fun part => part.2 ∉ part.1.mnemonics := by
  unfold Meaning.unknownMnemonics parts
  apply List.filter_congr
  intro part _
  rw [Bool.eq_iff_iff, Option.isNone_iff_eq_none, Field.bits?_eq_none_iff, decide_eq_true_iff]

theorem unknownMnemonics_eq_nil_iff :
    Meaning.unknownMnemonics text = [] ↔
      ∀ part ∈ (ofText text).parts, part.2 ∈ part.1.mnemonics := by
  simp [unknownMnemonics_eq]

/-- Strict mode stops at the first part that is not listed. -/
theorem outcome_encode_strict (line : Nat) (text : String) :
    ((ofText text).encode .strict line).outcome =
      match (ofText text).parts.find? fun part => part.2 ∉ part.1.mnemonics with
      | some part => .error ⟨line, .unknownMnemonic part.1 part.2⟩
      | none => .ok (Meaning.computation text) := by
  have ends := encode_ends .strict line text
  rw [unknownMnemonics_eq, List.head?_filter] at ends
  cases found : (ofText text).parts.find? fun part => part.2 ∉ part.1.mnemonics with
  | some part => rwa [found] at ends
  | none =>
    rw [found] at ends
    obtain ⟨result, run, rfl⟩ := ends
    rw [run]

end Mnemonics

/-! ## Computations -/

/-- The parts of a computation that is written `[dest=]comp[;jump]`. -/
@[ext] structure Computation where
  dest? : Option String
  comp : String
  jump? : Option String
  deriving Repr, DecidableEq

namespace Computation

def text (computation : Computation) : String :=
  (computation.dest?.map (· ++ "=")).getD "" ++ computation.comp ++
    (computation.jump?.map (";" ++ ·)).getD ""

/-- The mnemonics of the parts, with `null` for what is missing. -/
def mnemonics (computation : Computation) : Mnemonics :=
  ⟨computation.dest?.getD "null", computation.comp, computation.jump?.getD "null"⟩

/-- Every part is a mnemonic that the table of its field lists. -/
structure IsListed (computation : Computation) : Prop where
  dest : ∀ mnemonic ∈ computation.dest?, mnemonic ∈ Field.dest.mnemonics
  comp : computation.comp ∈ Field.comp.mnemonics
  jump : ∀ mnemonic ∈ computation.jump?, mnemonic ∈ Field.jump.mnemonics

/-- What strict mode makes of the text of a computation on a line. -/
def encodeStrict (line : Nat) (text : String) : Except Fault Instruction :=
  ((Mnemonics.ofText text).encode .strict line).outcome

/-- The bits stand for a part of a computation, or are not set if the part is missing. -/
def StandFor (bits : Word) (field : Field) : Option String → Prop
  | some mnemonic => (mnemonic, bits) ∈ field.table
  | none => bits = 0b000

/-- The instruction carries the bits of the parts. -/
def IsCarriedBy (computation : Computation) (instruction : Instruction) : Prop :=
  ∃ dest comp jump, instruction = .compute dest comp jump ∧
    StandFor dest .dest computation.dest? ∧ StandFor comp .comp (some computation.comp) ∧
    StandFor jump .jump computation.jump?

variable {computation other : Computation} {line : Nat} {text : String}

theorem isListed_iff :
    computation.IsListed ↔ ∀ part ∈ computation.mnemonics.parts, part.2 ∈ part.1.mnemonics := by
  have absent : "null" ∈ Field.dest.mnemonics ∧ "null" ∈ Field.jump.mnemonics := by decide
  obtain ⟨dest?, comp, jump?⟩ := computation
  simp only [mnemonics, Mnemonics.parts, List.forall_mem_cons, List.not_mem_nil, false_implies,
    implies_true, and_true]
  constructor
  · rintro ⟨dest, comp, jump⟩
    refine ⟨?_, comp, ?_⟩
    · cases dest? with
      | none => exact absent.1
      | some mnemonic => exact dest mnemonic rfl
    · cases jump? with
      | none => exact absent.2
      | some mnemonic => exact jump mnemonic rfl
  · rintro ⟨dest, comp, jump⟩
    exact ⟨by rintro mnemonic ⟨⟩; exact dest, comp, by rintro mnemonic ⟨⟩; exact jump⟩

/-- However a text is cut, it is written for the parts that the cuts leave. -/
theorem exists_of_isCut {cut : Mnemonics} (isCut : cut.IsCut text) :
    ∃ computation : Computation, computation.text = text ∧ computation.mnemonics = cut := by
  obtain ⟨dest, comp, jump⟩ := cut
  obtain ⟨rest, ⟨rfl, -⟩ | ⟨rfl, rfl, -⟩, ⟨rfl, -⟩ | ⟨rfl, rfl, -⟩⟩ := isCut
  · exact ⟨⟨some dest, comp, some jump⟩, by simp [Computation.text, String.append_assoc], rfl⟩
  · exact ⟨⟨some dest, rest, none⟩, by simp [Computation.text], rfl⟩
  · exact ⟨⟨none, comp, some jump⟩, by simp [Computation.text, String.append_assoc], rfl⟩
  · exact ⟨⟨none, text, none⟩, by simp [Computation.text], rfl⟩

/-- Mnemonics hold no separator, so the cuts fall where the parts meet. -/
theorem IsListed.isCut (listed : computation.IsListed) :
    computation.mnemonics.IsCut computation.text := by
  obtain ⟨dest?, comp, jump?⟩ := computation
  have compClean := Field.separators_notMem listed.comp
  refine ⟨comp ++ (jump?.map (";" ++ ·)).getD "", ?_, ?_⟩
  · cases dest? with
    | some dest =>
      have clean := Field.separators_notMem (listed.dest dest rfl)
      exact Or.inl ⟨by simp [Computation.text, mnemonics, String.append_assoc], clean.1⟩
    | none =>
      refine Or.inr ⟨rfl, by simp [Computation.text], ?_⟩
      cases jump? with
      | none => simpa [Computation.text] using compClean.1
      | some jump =>
        have clean := Field.separators_notMem (listed.jump jump rfl)
        simpa [Computation.text] using ⟨compClean.1, clean.1⟩
  · cases jump? with
    | some jump => exact Or.inl ⟨by simp [mnemonics, String.append_assoc], compClean.2⟩
    | none => exact Or.inr ⟨rfl, by simp [mnemonics], by simpa using compClean.2⟩

theorem IsListed.ofText (listed : computation.IsListed) :
    Mnemonics.ofText computation.text = computation.mnemonics :=
  listed.isCut.eq_ofText.symm

/-- The separators of a text tell which parts there are. -/
theorem IsListed.mem_text_iff (listed : computation.IsListed) :
    ('=' ∈ computation.text.toList ↔ computation.dest?.isSome) ∧
      (';' ∈ computation.text.toList ↔ computation.jump?.isSome) := by
  obtain ⟨dest?, comp, jump?⟩ := computation
  have compClean := Field.separators_notMem listed.comp
  cases dest? with
  | none =>
    cases jump? with
    | none => simp [Computation.text, compClean]
    | some jump =>
      have jumpClean := Field.separators_notMem (listed.jump jump rfl)
      simp [Computation.text, compClean, jumpClean]
  | some dest =>
    have destClean := Field.separators_notMem (listed.dest dest rfl)
    cases jump? with
    | none => simp [Computation.text, compClean, destClean]
    | some jump => simp [Computation.text, compClean]

/-- A text has one way to be read. -/
theorem IsListed.eq_of_text_eq (listed : computation.IsListed) (listed' : other.IsListed)
    (same : computation.text = other.text) : computation = other := by
  have mnemonics : computation.mnemonics = other.mnemonics := by
    rw [← listed.ofText, ← listed'.ofText, same]
  have separators := listed.mem_text_iff
  have separators' := listed'.mem_text_iff
  rw [same] at separators
  have destThere := separators.1.symm.trans separators'.1
  have jumpThere := separators.2.symm.trans separators'.2
  have part {part? other? : Option String} (there : part?.isSome ↔ other?.isSome)
      (equal : part?.getD "null" = other?.getD "null") : part? = other? := by
    cases part? <;> cases other? <;> simp_all
  obtain ⟨dest, comp, jump⟩ := Mnemonics.mk.inj mnemonics
  exact Computation.ext (part destThere dest) comp (part jumpThere jump)

theorem encodeStrict_eq_ok_iff {instruction : Instruction} :
    encodeStrict line text = .ok instruction ↔
      Meaning.unknownMnemonics text = [] ∧ instruction = Meaning.computation text := by
  rw [encodeStrict, Mnemonics.outcome_encode_strict, Mnemonics.unknownMnemonics_eq,
    ← List.head?_eq_none_iff, List.head?_filter]
  cases (Mnemonics.ofText text).parts.find? fun part => part.2 ∉ part.1.mnemonics with
  | none => simp [eq_comm]
  | some part => simp

theorem known_iff :
    Meaning.unknownMnemonics text = [] ↔
      ∃ computation : Computation, computation.IsListed ∧ computation.text = text := by
  rw [Mnemonics.unknownMnemonics_eq_nil_iff]
  constructor
  · intro listed
    obtain ⟨computation, written, cut⟩ := exists_of_isCut (Mnemonics.isCut_ofText text)
    exact ⟨computation, isListed_iff.2 (by rwa [cut]), written⟩
  · rintro ⟨computation, listed, rfl⟩
    rw [listed.ofText]
    exact isListed_iff.1 listed

/-- The bits of a part, read as `null` if it is missing, stand for the part. -/
theorem standFor_of_bits? {field : Field} {part? : Option String} {bits : Word}
    (null : field.bits? "null" = some 0b000)
    (found : field.bits? (part?.getD "null") = some bits) : StandFor bits field part? := by
  cases part? with
  | some mnemonic => exact Field.bits?_eq_some_iff.1 found
  | none =>
    rw [Option.getD_none, null] at found
    exact (Option.some.inj found).symm

theorem IsListed.bits? (listed : computation.IsListed) :
    ∃ dest comp jump, Meaning.computation computation.text = .compute dest comp jump ∧
      Field.dest.bits? computation.mnemonics.dest = some dest ∧
      Field.comp.bits? computation.mnemonics.comp = some comp ∧
      Field.jump.bits? computation.mnemonics.jump = some jump := by
  have known := known_iff.2 ⟨computation, listed, rfl⟩
  have bits := Meaning.bits?_eq_some_of_known known
  rw [listed.ofText] at bits
  refine ⟨_, _, _, ?_, bits⟩
  rw [Meaning.computation, listed.ofText]

theorem IsListed.isCarriedBy (listed : computation.IsListed) :
    computation.IsCarriedBy (Meaning.computation computation.text) := by
  obtain ⟨dest, comp, jump, same, destBits, compBits, jumpBits⟩ := listed.bits?
  exact ⟨dest, comp, jump, same, standFor_of_bits? (by decide) destBits,
    Field.bits?_eq_some_iff.1 compBits, standFor_of_bits? (by decide) jumpBits⟩

/-- A word tells the mnemonics that it is made from. -/
theorem IsListed.encode_eq_iff (listed : computation.IsListed) (listed' : other.IsListed) :
    (Meaning.computation computation.text).encode = (Meaning.computation other.text).encode ↔
      computation.mnemonics = other.mnemonics := by
  constructor
  · intro same
    have legal := Meaning.isLegal_computation (known_iff.2 ⟨computation, listed, rfl⟩)
    have legal' := Meaning.isLegal_computation (known_iff.2 ⟨other, listed', rfl⟩)
    have decoded := Instruction.decode?_encode legal
    rw [same, Instruction.decode?_encode legal', Option.some.injEq] at decoded
    obtain ⟨dest, comp, jump, whole, destBits, compBits, jumpBits⟩ := listed.bits?
    obtain ⟨dest', comp', jump', whole', destBits', compBits', jumpBits'⟩ := listed'.bits?
    rw [whole, whole'] at decoded
    obtain ⟨rfl, rfl, rfl⟩ := Instruction.compute.inj decoded
    rw [Field.bits?_eq_some_iff] at destBits compBits jumpBits destBits' compBits' jumpBits'
    rw [Computation.mnemonics, Computation.mnemonics, Mnemonics.mk.injEq]
    exact ⟨Field.eq_of_mem_table destBits destBits', Field.eq_of_mem_table compBits compBits',
      Field.eq_of_mem_table jumpBits jumpBits'⟩
  · intro same
    rw [Meaning.computation, Meaning.computation, listed.ofText, listed'.ofText, same]

/-- Strict mode takes exactly the texts that are written `[dest=]comp[;jump]` with mnemonics of the
tables, which can be read in one way only, and makes the instruction with the bits of the tables.
Two of them make the same word if they differ in a missing `null` at most. For any other text it
reports the first part, as the text is cut, that is not listed. -/
theorem strict_grammar :
    (∀ line text, (∃ instruction, encodeStrict line text = .ok instruction) ↔
      ∃ computation : Computation, computation.IsListed ∧ computation.text = text) ∧
    (∀ computation other : Computation, computation.IsListed → other.IsListed →
      computation.text = other.text → computation = other) ∧
    (∀ line (computation : Computation) instruction, computation.IsListed →
      encodeStrict line computation.text = .ok instruction →
      computation.IsCarriedBy instruction) ∧
    (∀ line line' (computation other : Computation) instruction instruction',
      computation.IsListed → other.IsListed →
      encodeStrict line computation.text = .ok instruction →
      encodeStrict line' other.text = .ok instruction' →
      (instruction.encode = instruction'.encode ↔
        computation.comp = other.comp ∧
        computation.dest?.getD "null" = other.dest?.getD "null" ∧
        computation.jump?.getD "null" = other.jump?.getD "null")) ∧
    ∀ line text, (¬ ∃ instruction, encodeStrict line text = .ok instruction) →
      ∃ cut : Mnemonics, cut.IsCut text ∧ ∃ field mnemonic,
        encodeStrict line text = .error ⟨line, .unknownMnemonic field mnemonic⟩ ∧
        cut.parts.find? (fun part => part.2 ∉ part.1.mnemonics) = some (field, mnemonic) := by
  refine ⟨?_, ?_, ?_, ?_, ?_⟩
  · intro line text
    simp only [encodeStrict_eq_ok_iff, exists_and_left, exists_eq, and_true, known_iff]
  · intro computation other listed listed' same
    exact listed.eq_of_text_eq listed' same
  · intro line computation instruction listed accepted
    obtain ⟨-, rfl⟩ := encodeStrict_eq_ok_iff.1 accepted
    exact listed.isCarriedBy
  · intro line line' computation other instruction instruction' listed listed' accepted accepted'
    obtain ⟨-, rfl⟩ := encodeStrict_eq_ok_iff.1 accepted
    obtain ⟨-, rfl⟩ := encodeStrict_eq_ok_iff.1 accepted'
    rw [listed.encode_eq_iff listed', Computation.mnemonics, Computation.mnemonics,
      Mnemonics.mk.injEq]
    exact and_left_comm
  · intro line text rejected
    have ends := Mnemonics.outcome_encode_strict line text
    refine ⟨Mnemonics.ofText text, Mnemonics.isCut_ofText text, ?_⟩
    cases found : (Mnemonics.ofText text).parts.find? fun part => part.2 ∉ part.1.mnemonics with
    | none =>
      rw [found] at ends
      exact absurd ⟨_, ends⟩ rejected
    | some part =>
      rw [found] at ends
      exact ⟨part.1, part.2, ends, rfl⟩

/-- A destination that is missing or written `null`, and a text with one separator too many. -/
theorem strict_grammar_null_and_repeated_separator :
    (∃ instruction instruction', encodeStrict 1 "null=D;JMP" = .ok instruction ∧
      encodeStrict 2 "D;JMP" = .ok instruction' ∧
      (⟨some "null", "D", some "JMP"⟩ : Computation).IsCarriedBy instruction ∧
      (⟨none, "D", some "JMP"⟩ : Computation).IsCarriedBy instruction' ∧
      instruction.encode = instruction'.encode) ∧
    ∃ cut : Mnemonics, cut.IsCut "D=A=1" ∧ ∃ field mnemonic,
      encodeStrict 3 "D=A=1" = .error ⟨3, .unknownMnemonic field mnemonic⟩ ∧
      cut.parts.find? (fun part => part.2 ∉ part.1.mnemonics) = some (field, mnemonic) := by
  have written : (⟨some "null", "D", some "JMP"⟩ : Computation).IsListed :=
    isListed_iff.2 (by decide)
  have missing : (⟨none, "D", some "JMP"⟩ : Computation).IsListed := isListed_iff.2 (by decide)
  have rejected : encodeStrict 3 "D=A=1" = .error ⟨3, .unknownMnemonic .comp "A=1"⟩ := by
    decide +kernel
  obtain ⟨accepts, -, carries, sameWord, rejects⟩ := strict_grammar
  obtain ⟨instruction, accepted⟩ := (accepts 1 "null=D;JMP").2 ⟨_, written, rfl⟩
  obtain ⟨instruction', accepted'⟩ := (accepts 2 "D;JMP").2 ⟨_, missing, rfl⟩
  refine ⟨⟨instruction, instruction', accepted, accepted', carries 1 _ _ written accepted,
    carries 2 _ _ missing accepted', ?_⟩, rejects 3 "D=A=1" (by simp [rejected])⟩
  exact (sameWord 1 2 _ _ _ _ written missing accepted accepted').2 ⟨rfl, rfl, rfl⟩

end Computation

end HackAssembler
