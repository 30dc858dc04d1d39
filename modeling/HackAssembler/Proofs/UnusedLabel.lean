import HackAssembler.Proofs.Linking
import HackAssembler.Proofs.Strictness

/-!
# Labels that nothing refers to

A line with a label whose name is no operand can be put between any two lines of a source, and the
words stay as they are (`words_of_unused_label`). A label gives no instruction, so every other label
keeps its place, and it settles the address of one name only, which is never looked up. So the name
may be reserved, or declared elsewhere before or after. Strict mode must find the label itself sound;
then it finds nothing new in the rest of the program, since no other name is known or unknown for it.
-/

set_option autoImplicit false

namespace HackAssembler

namespace Meaning

variable {front back : List Token} {line : Nat} {name other : String}

/-! ## A label among the tokens -/

theorem commands_insert_label :
    commands (front ++ ⟨line, .label name⟩ :: back) = commands (front ++ back) := by
  rw [List.append_cons, commands_append, commands_concat_label, ← commands_append]

theorem known?_insert_label (apart : name ≠ other) :
    known? (front ++ ⟨line, .label name⟩ :: back) other = known? (front ++ back) other := by
  rw [known?, List.append_cons, labelPlace?_append, commands_concat_label, labelPlace?_concat_label,
    if_neg apart, ← labelPlace?_append, known?]

/-- Where the name is no operand, the operands stand for what they stood for. -/
theorem known?_insert_label_of_notMem (front back : List Token) (line : Nat) {past : List Command}
    (absent : name ∉ operands past) : ∀ operand ∈ operands past, Literal.isNumeral operand = false →
      known? (front ++ ⟨line, .label name⟩ :: back) operand = known? (front ++ back) operand :=
  fun _ used _ => known?_insert_label fun same => absent (same ▸ used)

/-- A label whose name is no operand does not show in the listing. -/
theorem listing_insert_label (unused : name ∉ operands (commands (front ++ back))) :
    listing (front ++ ⟨line, .label name⟩ :: back) = listing (front ++ back) := by
  rw [listing, commands_insert_label, listing]
  congr 1
  apply List.map_congr_left
  intro placed found
  have kept := instruction_append_congr (known?_insert_label_of_notMem front back line unused)
    (List.fst_mem_of_mem_zipIdx found) []
  rw [List.append_nil] at kept
  rw [entry, kept, entry]

/-! ## Soundness -/

/-- A plain name that is new makes a sound label as long as its place is an address. -/
theorem labelDefect?_eq_none {past : List Token} (plain : isPlainName name = true)
    (unreserved : reservedNames.lookup name = none)
    (undeclared : ∀ line, ⟨line, .label name⟩ ∉ past) (near : (commands past).length ≤ 32767) :
    labelDefect? past name = none := by
  have named : name ≠ "" := by
    rintro rfl
    contradiction
  have clean : isSpoiled name = false := by
    simpa [Layout.isPlainName_eq named] using plain
  have unplaced : labelPlace? past name = none := by
    rw [labelPlace?_eq_none_iff, mem_declared_iff, not_exists]
    exact undeclared
  simp [labelDefect?, clean, Nat.not_lt.2 near, known?, unplaced, unreserved]

/-- Another token is not judged otherwise for a label before it. -/
theorem tokenFault?_insert_label {token : Token} (apart : token.item ≠ .label name) :
    tokenFault? (front ++ ⟨line, .label name⟩ :: back) token =
      tokenFault? (front ++ back) token := by
  obtain ⟨place, statement⟩ := token
  cases statement with
  | operation op => cases op <;> rfl
  | label other =>
    have different : name ≠ other := fun same => apart (by rw [same])
    simp only [tokenFault?, labelDefect?, commands_insert_label, known?_insert_label different]

/-- The first walk finds nothing wrong for a label that is sound itself, if no label behind it has the
same name. -/
theorem tokenFault?_eq_none_of_insert_label (undeclared : ∀ line, ⟨line, .label name⟩ ∉ back)
    (right : labelDefect? front name = none)
    (sound : ∀ p ∈ withPast (front ++ back), tokenFault? p.1 p.2 = none) :
    ∀ p ∈ withPast (front ++ ⟨line, .label name⟩ :: back), tokenFault? p.1 p.2 = none := by
  rintro ⟨past, token⟩ found
  rcases mem_withPast_append_cons.1 found with before | ⟨rfl, rfl⟩ | ⟨between, behind, rfl⟩
  · exact sound _ (mem_withPast_append before back)
  · exact Option.map_eq_none_iff.2 right
  · have apart : token.item ≠ .label name := fun label =>
      undeclared token.line (label ▸ mem_of_mem_withPast behind)
    have inside : (front ++ between, token) ∈ withPast (front ++ back) := by
      rw [withPast_append]
      exact List.mem_append_right _ (List.mem_map_of_mem behind)
    rw [tokenFault?_insert_label apart]
    exact sound _ inside

/-- The second walk finds what it found before, since the name is none of the operands. -/
theorem commandFault?_insert_label {all past : List Command} {command : Command}
    (unused : name ∉ operands all) (found : (past, command) ∈ withPast all) :
    commandFault? (known? (front ++ ⟨line, .label name⟩ :: back)) past command =
      commandFault? (known? (front ++ back)) past command := by
  obtain ⟨rest, rfl⟩ := mem_withPast.1 found
  rw [List.append_cons, operands_append, List.mem_append, not_or] at unused
  exact commandFault?_congr (known?_insert_label_of_notMem front back line unused.1)

/-- A sound label leaves a sound program sound, if its name is no operand and no label behind it has
the same name. -/
theorem fault?_insert_label (unused : name ∉ operands (commands (front ++ back)))
    (undeclared : ∀ line, ⟨line, .label name⟩ ∉ back) (right : labelDefect? front name = none)
    (sound : fault? (front ++ back) = none) :
    fault? (front ++ ⟨line, .label name⟩ :: back) = none := by
  obtain ⟨first, second⟩ := Option.or_eq_none_iff.1 sound
  rw [List.findSome?_eq_none_iff] at first second
  rw [fault?, Option.or_eq_none_iff, List.findSome?_eq_none_iff, List.findSome?_eq_none_iff,
    commands_insert_label]
  refine ⟨tokenFault?_eq_none_of_insert_label undeclared right first, fun p found => ?_⟩
  rw [commandFault?_insert_label unused found]
  exact second p found

end Meaning

/-! ## A label among the lines -/

open Text Meaning

variable {source source' name : String} {before after : List (List Char)}

/-- One more line that says something is one more token, and moves the tokens behind it. -/
theorem Token.exists_of_inserted_line {line : List Char} {statement : Statement}
    (whole : lines source.toList = before ++ after)
    (inserted : lines source'.toList = before ++ line :: after)
    (read : Statement.ofLine? line = some statement) :
    ∃ front back, ofSource source = front ++ back ∧
      front.map Located.item = before.filterMap Statement.ofLine? ∧
      (ofSource source').map Located.item = (front ++ ⟨0, statement⟩ :: back).map Located.item := by
  have items := map_item_ofSource_eq_filterMap source
  rw [whole, List.filterMap_append] at items
  obtain ⟨front, back, tokens, said, said'⟩ := List.map_eq_append_iff.1 items
  refine ⟨front, back, tokens, said, ?_⟩
  rw [map_item_ofSource_eq_filterMap, inserted, List.filterMap_append,
    List.filterMap_cons_some read, List.map_append, List.map_cons, said, said']

/-- Two sources, the second with one more line somewhere, which declares a label that is no operand.
Lenient mode gives both the same words. Strict mode does so if it accepts the first one and the
label has a plain name, which is neither reserved nor declared, and a place in reach. -/
theorem words_of_unused_label (whole : lines source.toList = before ++ after)
    (inserted : lines source'.toList = before ++ ("(" ++ name ++ ")").toList :: after)
    (named : name ≠ "") (uncommented : ¬ ['/', '/'] <:+: name.toList)
    (unused : ∀ line, ⟨line, .operation (.address name)⟩ ∉ Token.ofSource source) :
    (∃ listing listing',
      (assemble .lenient source).outcome = .ok listing ∧
      (assemble .lenient source').outcome = .ok listing' ∧ listing'.words = listing.words) ∧
    (isPlainName name = true → reservedNames.lookup name = none →
      (∀ line, ⟨line, .label name⟩ ∉ Token.ofSource source) →
      ((before.filterMap Statement.ofLine?).filterMap Statement.operation?).length ≤ 32767 →
      ∀ listing, (assemble .strict source).outcome = .ok listing →
        ∃ listing', (assemble .strict source').outcome = .ok listing' ∧
          listing'.words = listing.words) := by
  have unbroken : '\n' ∉ name.toList := by
    have line : ("(" ++ name ++ ")").toList ∈ lines source'.toList := by
      rw [inserted]
      exact List.mem_append_right _ List.mem_cons_self
    simpa using feed_notMem_of_mem_lines line
  obtain ⟨front, back, tokens, said, items⟩ := Token.exists_of_inserted_line whole inserted
    (Statement.ofLine?_label named unbroken uncommented)
  have absent : name ∉ operands (commands (front ++ back)) := by
    intro used
    obtain ⟨line, refers⟩ := mem_operands_iff.1 used
    rw [tokens] at unused
    exact unused line (mem_commands_iff.1 refers)
  have same : (listing (Token.ofSource source')).words =
      (listing (Token.ofSource source)).words := by
    have code := (sameButLines_listing items).code
    rw [listing_insert_label absent, ← tokens] at code
    rw [Listing.words_eq, code, Listing.words_eq]
  constructor
  · exact ⟨_, _, congrArg Traced.outcome (assemble_lenient source),
      congrArg Traced.outcome (assemble_lenient source'), same⟩
  · intro plain unreserved undeclared few listing accepted
    obtain rfl := eq_listing_of_outcome accepted
    have near : (commands front).length ≤ 32767 := by
      rwa [← said, ← map_item_commands, List.length_map] at few
    have sound := sound_of_outcome_strict accepted
    rw [tokens] at sound undeclared
    have right : labelDefect? front name = none := labelDefect?_eq_none plain unreserved
      (fun line found => undeclared line (List.mem_append_left _ found)) near
    have sound' : fault? (Token.ofSource source') = none := by
      have defect := map_item_fault?_eq items
      rwa [fault?_insert_label absent
        (fun line found => undeclared line (List.mem_append_right _ found)) right sound,
        Option.map_none, Option.map_eq_none_iff] at defect
    exact ⟨_, by rw [assemble_of_sound sound'], same⟩

/-- In front of a label that is referred to: one that is declared twice, and a new one. -/
theorem words_of_unused_label_twice_and_new :
    (∃ listing listing',
      (assemble .lenient "(TOP)\n@END\n0;JMP\n(END)\nD=A").outcome = .ok listing ∧
      (assemble .lenient "(TOP)\n@END\n0;JMP\n(TOP)\n(END)\nD=A").outcome = .ok listing' ∧
      listing'.words = listing.words) ∧
    ∃ listing listing',
      (assemble .strict "(TOP)\n@END\n0;JMP\n(END)\nD=A").outcome = .ok listing ∧
      (assemble .strict "(TOP)\n@END\n0;JMP\n(NEXT)\n(END)\nD=A").outcome = .ok listing' ∧
      listing'.words = listing.words := by
  have whole : lines "(TOP)\n@END\n0;JMP\n(END)\nD=A".toList =
      ["(TOP)".toList, "@END".toList, "0;JMP".toList] ++ ["(END)".toList, "D=A".toList] := by
    decide +kernel
  have twice : lines "(TOP)\n@END\n0;JMP\n(TOP)\n(END)\nD=A".toList =
      ["(TOP)".toList, "@END".toList, "0;JMP".toList] ++
        ("(" ++ "TOP" ++ ")").toList :: ["(END)".toList, "D=A".toList] := by
    decide +kernel
  have new : lines "(TOP)\n@END\n0;JMP\n(NEXT)\n(END)\nD=A".toList =
      ["(TOP)".toList, "@END".toList, "0;JMP".toList] ++
        ("(" ++ "NEXT" ++ ")").toList :: ["(END)".toList, "D=A".toList] := by
    decide +kernel
  have tokens : Token.ofSource "(TOP)\n@END\n0;JMP\n(END)\nD=A" = [⟨1, .label "TOP"⟩,
      ⟨2, .operation (.address "END")⟩, ⟨3, .operation (.compute "0;JMP")⟩, ⟨4, .label "END"⟩,
      ⟨5, .operation (.compute "D=A")⟩] := by
    decide +kernel
  obtain ⟨listing, accepted⟩ : ∃ listing,
      (assemble .strict "(TOP)\n@END\n0;JMP\n(END)\nD=A").outcome = .ok listing :=
    ⟨⟨[⟨0, 2, "@END", .address 2⟩, ⟨1, 3, "0;JMP", .compute 0 0b0101010 0b111⟩,
      ⟨2, 5, "D=A", .compute 0b010 0b0110000 0⟩]⟩, by decide +kernel⟩
  refine ⟨?_, listing, ?_⟩
  · exact (words_of_unused_label whole twice (by decide) (by decide) (by simp [tokens])).1
  · obtain ⟨listing', accepted', same⟩ := (words_of_unused_label whole new (by decide) (by decide)
      (by simp [tokens])).2 (by decide +kernel) (by decide +kernel) (by simp [tokens])
        (by decide +kernel) listing accepted
    exact ⟨listing', accepted, accepted', same⟩

end HackAssembler
