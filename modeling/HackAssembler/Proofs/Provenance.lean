import HackAssembler.Proofs.FirstFault

/-!
# Where the entries of a listing come from

A listing has one entry for every line of its source that says something and is no label, in the
order of the lines, and the entries are numbered from zero (`listing_of_lines`). Each entry shows
its line as it is without comment and outer blanks, although the line was read as an operation in
between and written out again; and the first character of that text settles whether the instruction
is an address.
-/

set_option autoImplicit false

namespace HackAssembler

namespace Statement

variable {text : List Char} {op : Operation}

/-- The text declares a label: a name stands between two parentheses. -/
def IsLabel (text : List Char) : Prop := ∃ name, Encloses text name

/-- Where there is no line feed, a name between parentheses is all that a declaration takes. -/
theorem isLabel_iff (unbroken : '\n' ∉ text) : IsLabel text ↔ ∃ name, Declares text name := by
  constructor
  · rintro ⟨name, encloses⟩
    refine ⟨name, encloses, fun found => unbroken ?_⟩
    rw [encloses.1]
    exact List.mem_cons_of_mem _ (List.mem_append_left _ found)
  · rintro ⟨name, declares⟩
    exact ⟨name, declares.1⟩

/-- The operation that a text is written for. -/
def operationOf (text : List Char) : Operation :=
  if text.head? = some '@' then .address (String.ofList text.tail)
  else .compute (String.ofList text)

theorem toList_text_operationOf (text : List Char) : (operationOf text).text.toList = text := by
  unfold operationOf
  split
  · rename_i sign
    obtain ⟨rest, rfl⟩ := List.head?_eq_some_iff.1 sign
    simp [Operation.text]
  · simp [Operation.text]

theorem operationOf_eq_address_iff :
    (∃ operand, operationOf text = .address operand) ↔ text.head? = some '@' := by
  by_cases sign : text.head? = some '@' <;> simp [operationOf, sign]

/-- Exactly a text that says something and declares no label is read as an operation. -/
theorem ofStripped?_eq_operation_iff (unbroken : '\n' ∉ text) :
    ofStripped? text = some (operation op) ↔
      text ≠ [] ∧ ¬ IsLabel text ∧ op = operationOf text := by
  rw [isLabel_iff unbroken, not_exists, ← labelName?_eq_none_iff]
  unfold ofStripped? operationOf
  cases labelName? text with
  | some name => simp
  | none =>
    cases text with
    | nil => simp
    | cons c rest =>
      by_cases sign : c = '@'
      · simp [sign, eq_comm]
      · simp [sign, eq_comm]

end Statement

open Text Statement Meaning

variable {source : String}

theorem mem_strippedLines_iff {number : Nat} {text : List Char} :
    ⟨number, text⟩ ∈ strippedLines source ↔
      ∃ place line, (lines source.toList)[place]? = some line ∧ number = place + 1 ∧
        strip line = text ∧ text ≠ [] := by
  rw [strippedLines, mem_saidFrom_iff]
  constructor
  · rintro ⟨line, found, rfl, filled⟩
    obtain ⟨counted, here⟩ := List.mem_zipIdx_iff_le_and_getElem?_sub.1 found
    exact ⟨number - 1, line, here, (Nat.sub_add_cancel counted).symm, rfl, filled⟩
  · rintro ⟨place, line, here, rfl, said⟩
    refine ⟨line, ?_, said⟩
    rw [List.mem_zipIdx_iff_le_and_getElem?_sub]
    exact ⟨Nat.le_add_left 1 place, here⟩

/-- The commands of a source are the lines that say something and declare no label. -/
theorem mem_commands_ofSource_iff {command : Command} :
    command ∈ commands (Token.ofSource source) ↔
      ∃ place line, (lines source.toList)[place]? = some line ∧ command.line = place + 1 ∧
        strip line ≠ [] ∧ ¬ IsLabel (strip line) ∧ command.item = operationOf (strip line) := by
  rw [mem_commands_iff, Token.mem_ofSource_iff]
  constructor
  · rintro ⟨text, stated, read⟩
    obtain ⟨place, line, here, number, rfl, -⟩ := mem_strippedLines_iff.1 stated
    have unbroken : '\n' ∉ strip line := fun found =>
      feed_notMem_of_mem_lines (List.mem_of_getElem? here) (mem_of_mem_strip found)
    exact ⟨place, line, here, number, (ofStripped?_eq_operation_iff unbroken).1 read⟩
  · rintro ⟨place, line, here, number, filled, plain⟩
    have unbroken : '\n' ∉ strip line := fun found =>
      feed_notMem_of_mem_lines (List.mem_of_getElem? here) (mem_of_mem_strip found)
    exact ⟨strip line, mem_strippedLines_iff.2 ⟨place, line, here, number, rfl, filled⟩,
      (ofStripped?_eq_operation_iff unbroken).2 ⟨filled, plain⟩⟩

theorem instruction_eq_address_iff {names : Names} {commands : List Command} {op : Operation} :
    (∃ value, instruction names commands op = .address value) ↔
      ∃ operand, op = .address operand := by
  cases op <;> simp [instruction, computation]

/-- The entry at a place of a listing is made from the command at that place. -/
theorem getElem?_entries_listing {tokens : List Token} {i : Nat} {found : Entry} :
    (Meaning.listing tokens).entries[i]? = some found ↔
      ∃ command, (commands tokens)[i]? = some command ∧
        entry (known? tokens) (commands tokens) (command, i) = found := by
  simp [Meaning.listing, List.getElem?_zipIdx]

/-- A listing has an entry for exactly the lines that say something and declare no label, in their
order. The entries are numbered from zero, and each of them shows its line without comment and outer
blanks; it is an address instruction if that text starts with an at sign. -/
theorem listing_of_lines {mode : Mode} {listing : Listing}
    (assembled : (assemble mode source).outcome = .ok listing) :
    listing.entries.Pairwise (·.line < ·.line) ∧
      (∀ number, (∃ entry ∈ listing.entries, entry.line = number) ↔
        ∃ place line, (lines source.toList)[place]? = some line ∧ number = place + 1 ∧
          strip line ≠ [] ∧ ¬ IsLabel (strip line)) ∧
      ∀ (i : Nat) (entry : Entry), listing.entries[i]? = some entry →
        entry.address = i ∧
        ∃ place line, (lines source.toList)[place]? = some line ∧ entry.line = place + 1 ∧
          entry.source.toList = strip line ∧
          ((∃ value, entry.instruction = .address value) ↔ (strip line).head? = some '@') := by
  obtain rfl := eq_listing_of_outcome assembled
  refine ⟨?_, fun number => ?_, fun i found here => ?_⟩
  · have ordered := pairwise_commands (Token.pairwise_ofSource source)
    rw [← List.zipIdx_map_fst 0 (commands _), List.pairwise_map] at ordered
    exact List.pairwise_map.2 ordered
  · constructor
    · rintro ⟨found, listed, rfl⟩
      obtain ⟨placed, member, rfl⟩ := List.mem_map.1 listed
      obtain ⟨place, line, here, number, filled, plain, -⟩ :=
        mem_commands_ofSource_iff.1 (List.fst_mem_of_mem_zipIdx member)
      exact ⟨place, line, here, number, filled, plain⟩
    · rintro ⟨place, line, here, rfl, filled, plain⟩
      have member : (⟨place + 1, operationOf (strip line)⟩ : Command) ∈
          commands (Token.ofSource source) :=
        mem_commands_ofSource_iff.2 ⟨place, line, here, rfl, filled, plain, rfl⟩
      obtain ⟨i, counted⟩ := List.getElem?_of_mem member
      exact ⟨_, List.mem_of_getElem? (getElem?_entries_listing.2 ⟨_, counted, rfl⟩), rfl⟩
  · obtain ⟨command, counted, rfl⟩ := getElem?_entries_listing.1 here
    obtain ⟨place, line, there, number, filled, plain, op⟩ :=
      mem_commands_ofSource_iff.1 (List.mem_of_getElem? counted)
    refine ⟨rfl, place, line, there, number, ?_, ?_⟩
    · rw [entry, op, toList_text_operationOf]
    · rw [entry, op, instruction_eq_address_iff, operationOf_eq_address_iff]

/-- A comment, an empty line, a label and a text that only looks like one. -/
theorem listing_of_lines_with_gaps :
    ∃ listing, (assemble .lenient "// top\n\n  @7 // seven\n(X)\n()\nD=A").outcome = .ok listing ∧
      listing.entries[0]? = some ⟨0, 3, "@7", .address 7⟩ ∧
      listing.entries.Pairwise (·.line < ·.line) ∧
      (¬ ∃ entry ∈ listing.entries, entry.line = 4) ∧
      (∃ entry ∈ listing.entries, entry.line = 5) ∧
      ∃ place line, (lines "// top\n\n  @7 // seven\n(X)\n()\nD=A".toList)[place]? = some line ∧
        3 = place + 1 ∧ "@7".toList = strip line ∧ (strip line).head? = some '@' := by
  have assembled : (assemble .lenient "// top\n\n  @7 // seven\n(X)\n()\nD=A").outcome =
      .ok ⟨[⟨0, 3, "@7", .address 7⟩, ⟨1, 5, "()", .compute 0 0 0⟩,
        ⟨2, 6, "D=A", .compute 0b010 0b0110000 0⟩]⟩ := by
    decide +kernel
  obtain ⟨ordered, numbers, provenance⟩ := listing_of_lines assembled
  obtain ⟨-, place, line, here, number, text, isAddress⟩ := provenance 0 _ rfl
  refine ⟨_, assembled, rfl, ordered, ?_, (numbers 5).2 ?_, place, line, here, number, text,
    isAddress.1 ⟨7, rfl⟩⟩
  · rw [numbers 4]
    rintro ⟨place, line, here, number, -, plain⟩
    obtain rfl : place = 3 := by omega
    obtain rfl : "(X)".toList = line := Option.some.inj here
    exact plain ⟨"X", by decide +kernel, by decide⟩
  · refine ⟨4, "()".toList, by decide +kernel, rfl, by decide +kernel, ?_⟩
    rintro ⟨name, whole, filled⟩
    have short : ['(', ')'].length = ('(' :: (name.toList ++ [')'])).length :=
      congrArg List.length whole
    have empty : name.toList.length = 0 := by simpa using short
    exact filled (String.toList_eq_nil_iff.1 (List.length_eq_zero_iff.1 empty))

end HackAssembler
