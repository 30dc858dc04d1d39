import HackAssembler.Proofs.Linking

/-!
# Programs that go on

What is put behind a program has an influence on it through labels only. If no label that is
declared behind is an operand in front, then the listing of the whole starts with the listing of the
program in front, and the rest has one entry for each entry of the program behind, further down
(`listing_of_continued_source`). The variables in front get the addresses that they get alone, since
the same operands are variables and they come up in the same order, whatever other names the second
program binds.
-/

set_option autoImplicit false

namespace HackAssembler

/-- The entry is made from the same line of text, with so many instructions and lines in front. A
computation has the same instruction; an address may be another one. -/
def Entry.IsFurtherDown (instructions lines : Nat) (entry other : Entry) : Prop :=
  other.address = entry.address + instructions ∧ other.line = entry.line + lines ∧
    other.source = entry.source ∧
    ((∀ value, entry.instruction ≠ .address value) → other.instruction = entry.instruction)

namespace Meaning

variable {first second : List Token}

theorem size_listing (tokens : List Token) : (listing tokens).size = (commands tokens).length := by
  rw [Listing.size, listing, List.length_map, List.length_zipIdx]

/-- The entries of two programs together, if the second one declares no operand of the first one. -/
theorem entries_append
    (undeclared : ∀ operand ∈ operands (commands first), labelPlace? second operand = none) :
    (listing (first ++ second)).entries = (listing first).entries ++
      ((commands second).zipIdx (listing first).size).map
        (entry (known? (first ++ second)) (commands (first ++ second))) := by
  have same : ∀ operand ∈ operands (commands first), Literal.isNumeral operand = false →
      known? (first ++ second) operand = known? first operand :=
    fun operand used _ => known?_append_left (undeclared operand used)
  have front : (commands first).zipIdx.map
      (entry (known? (first ++ second)) (commands first ++ commands second)) =
        (listing first).entries := by
    apply List.map_congr_left
    intro placed found
    have used : placed.1 ∈ commands first := List.fst_mem_of_mem_zipIdx found
    rw [entry, instruction_append_congr same used, entry]
  rw [size_listing, ← front, listing, commands_append, List.zipIdx_append, List.map_append,
    Nat.zero_add]

/-- The entries of a program are found again further down, whatever names stand for there. -/
theorem forall₂_isFurtherDown (tokens : List Token) (names : Names) (all : List Command)
    (start count : Nat) :
    List.Forall₂ (Entry.IsFurtherDown start count) (listing tokens).entries
      (((commands (tokens.map (Located.moved (· + count)))).zipIdx start).map
        (entry names all)) := by
  rw [commands_moved, List.zipIdx_map, List.zipIdx_eq_map_add, List.map_map, List.map_map, listing,
    List.forall₂_map_left_iff, List.forall₂_map_right_iff, List.forall₂_same]
  rintro ⟨⟨line, op⟩, place⟩ -
  refine ⟨Nat.add_comm .., rfl, rfl, ?_⟩
  cases op with
  | address operand => exact fun computes => absurd rfl (computes _)
  | compute text => exact fun _ => rfl

end Meaning

open Meaning

/-- A source with another one behind it: the listing starts with the listing of the first one, if no
label of the second one is an operand in it, and has one entry more for each instruction of the
second one. -/
theorem listing_of_continued_source {first second : String}
    (unused : ∀ name line line', ⟨line, .label name⟩ ∈ Token.ofSource second →
      ⟨line', .operation (.address name)⟩ ∉ Token.ofSource first) :
    ∃ before behind continued rest,
      (assemble .lenient first).outcome = .ok before ∧
      (assemble .lenient second).outcome = .ok behind ∧
      (assemble .lenient (first ++ "\n" ++ second)).outcome = .ok continued ∧
      continued.entries = before.entries ++ rest ∧
      List.Forall₂ (Entry.IsFurtherDown before.size (first.toList.count '\n' + 1))
        behind.entries rest := by
  have undeclared (move : Nat → Nat) : ∀ operand ∈ operands (commands (Token.ofSource first)),
      labelPlace? ((Token.ofSource second).map (Located.moved move)) operand = none := by
    intro operand used
    rw [labelPlace?_eq_none_iff, declarations_moved]
    intro declared
    obtain ⟨line, label⟩ := mem_declared_iff.1 declared
    obtain ⟨line', refers⟩ := mem_operands_iff.1 used
    exact unused operand line line' label (mem_commands_iff.1 refers)
  have whole := entries_append (undeclared (· + (first.toList.count '\n' + 1)))
  rw [← Token.ofSource_append_feed] at whole
  exact ⟨_, _, _, _, congrArg Traced.outcome (assemble_lenient first),
    congrArg Traced.outcome (assemble_lenient second),
    congrArg Traced.outcome (assemble_lenient (first ++ "\n" ++ second)), whole,
    forall₂_isFurtherDown ..⟩

/-- The second source redeclares a label, takes over a reserved name and uses the variable of the
first one. -/
theorem listing_of_continued_source_redeclared :
    ∃ before behind continued rest,
      (assemble .lenient "(TOP)\n@i\n@SP").outcome = .ok before ∧
      (assemble .lenient "@TOP\n(TOP)\n(KBD)\n@i\nM=D").outcome = .ok behind ∧
      (assemble .lenient ("(TOP)\n@i\n@SP" ++ "\n" ++ "@TOP\n(TOP)\n(KBD)\n@i\nM=D")).outcome =
        .ok continued ∧
      continued.entries = before.entries ++ rest ∧
      List.Forall₂ (Entry.IsFurtherDown before.size 3) behind.entries rest := by
  have front : Token.ofSource "(TOP)\n@i\n@SP" = [⟨1, .label "TOP"⟩,
      ⟨2, .operation (.address "i")⟩, ⟨3, .operation (.address "SP")⟩] := by
    decide +kernel
  have back : Token.ofSource "@TOP\n(TOP)\n(KBD)\n@i\nM=D" = [⟨1, .operation (.address "TOP")⟩,
      ⟨2, .label "TOP"⟩, ⟨3, .label "KBD"⟩, ⟨4, .operation (.address "i")⟩,
      ⟨5, .operation (.compute "M=D")⟩] := by
    decide +kernel
  have feeds : "(TOP)\n@i\n@SP".toList.count '\n' + 1 = 3 := by decide +kernel
  rw [← feeds]
  apply listing_of_continued_source
  intro name line line' label refers
  rw [back] at label
  rw [front] at refers
  obtain ⟨-, rfl⟩ | ⟨-, rfl⟩ : (line = 2 ∧ name = "TOP") ∨ (line = 3 ∧ name = "KBD") := by
    simpa using label
  · simp at refers
  · simp at refers

end HackAssembler
