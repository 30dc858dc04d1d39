import HackAssembler.Proofs.Meaning

/-!
# Computations that look like labels

A text that opens or closes with a parenthesis is no computation. The cuts at the first `=` and at
the first `;` leave its two ends at the ends of its parts, and no mnemonic opens or closes with a
parenthesis. So one of its parts is a mnemonic that its field does not know.
-/

set_option autoImplicit false

namespace HackAssembler

namespace Text

variable {before after : List Char} {separator c : Char}

theorem head?_before (other : c ≠ separator)
    (head : (before ++ separator :: after).head? = some c) : before.head? = some c := by
  cases before with
  | nil => exact absurd (Option.some.inj head).symm other
  | cons first rest => exact head

theorem getLast?_after (other : c ≠ separator)
    (last : (before ++ separator :: after).getLast? = some c) : after.getLast? = some c := by
  cases after with
  | nil =>
    rw [List.getLast?_concat] at last
    exact absurd (Option.some.inj last).symm other
  | cons first rest =>
    rwa [List.getLast?_append_of_ne_nil _ (by simp), List.getLast?_cons_cons] at last

end Text

namespace Mnemonics

variable {text : String}

/-- How a text is cut: at the first `=`, if there is one, and what is left at the first `;`. -/
theorem ofText_cut (text : String) :
    ∃ rest : List Char,
      (text.toList = (ofText text).dest.toList ++ '=' :: rest ∧
          '=' ∉ (ofText text).dest.toList ∨
        (ofText text).dest = absent ∧ text.toList = rest ∧ '=' ∉ rest) ∧
      (rest = (ofText text).comp.toList ++ ';' :: (ofText text).jump.toList ∧
          ';' ∉ (ofText text).comp.toList ∨
        (ofText text).jump = absent ∧ rest = (ofText text).comp.toList ∧ ';' ∉ rest) := by
  -- Either cut is made or not, which leaves four shapes of a text.
  cases equals : Text.splitAtFirst '=' text.toList with
  | some pieces =>
    have whole := Text.splitAtFirst_eq_some_iff.1 equals
    cases semicolon : Text.splitAtFirst ';' pieces.2 with
    | some parts =>
      have cut := Text.splitAtFirst_eq_some_iff.1 semicolon
      exact ⟨pieces.2, Or.inl (by simpa [ofText, equals, semicolon] using whole),
        Or.inl (by simpa [ofText, equals, semicolon] using cut)⟩
    | none =>
      have kept := Text.splitAtFirst_eq_none_iff.1 semicolon
      exact ⟨pieces.2, Or.inl (by simpa [ofText, equals, semicolon] using whole),
        Or.inr (by simpa [ofText, equals, semicolon] using kept)⟩
  | none =>
    have clean := Text.splitAtFirst_eq_none_iff.1 equals
    cases semicolon : Text.splitAtFirst ';' text.toList with
    | some parts =>
      have cut := Text.splitAtFirst_eq_some_iff.1 semicolon
      exact ⟨text.toList, Or.inr (by simpa [ofText, equals, semicolon] using clean),
        Or.inl (by simpa [ofText, equals, semicolon] using cut)⟩
    | none =>
      have kept := Text.splitAtFirst_eq_none_iff.1 semicolon
      exact ⟨text.toList, Or.inr (by simpa [ofText, equals, semicolon] using clean),
        Or.inr (by simpa [ofText, equals, semicolon] using kept)⟩

theorem head?_part (head : text.toList.head? = some '(') :
    (ofText text).dest.toList.head? = some '(' ∨ (ofText text).comp.toList.head? = some '(' := by
  obtain ⟨rest, ⟨equals, -⟩ | ⟨-, equals, -⟩, ⟨semicolon, -⟩ | ⟨-, semicolon, -⟩⟩ := ofText_cut text
  · rw [equals] at head
    exact Or.inl (Text.head?_before (by decide) head)
  · rw [equals] at head
    exact Or.inl (Text.head?_before (by decide) head)
  · rw [equals, semicolon] at head
    exact Or.inr (Text.head?_before (by decide) head)
  · rw [equals, semicolon] at head
    exact Or.inr head

theorem getLast?_part (last : text.toList.getLast? = some ')') :
    (ofText text).comp.toList.getLast? = some ')' ∨
      (ofText text).jump.toList.getLast? = some ')' := by
  obtain ⟨rest, destination, computation⟩ := ofText_cut text
  have behind : rest.getLast? = some ')' := by
    rcases destination with ⟨equals, -⟩ | ⟨-, equals, -⟩
    · rw [equals] at last
      exact Text.getLast?_after (by decide) last
    · rwa [equals] at last
  rcases computation with ⟨semicolon, -⟩ | ⟨-, semicolon, -⟩
  · rw [semicolon] at behind
    exact Or.inr (Text.getLast?_after (by decide) behind)
  · rw [semicolon] at behind
    exact Or.inl behind

end Mnemonics

theorem Field.bits?_eq_none_of_bracket {mnemonic : String} (field : Field)
    (bracket : mnemonic.toList.head? = some '(' ∨ mnemonic.toList.getLast? = some ')') :
    field.bits? mnemonic = none := by
  have plain : ∀ entry ∈ field.table,
      ¬ (entry.1.toList.head? = some '(' ∨ entry.1.toList.getLast? = some ')') := by
    cases field <;> decide
  unfold Field.bits?
  rw [List.lookup_eq_none_iff]
  intro entry found
  apply bne_iff_ne.2
  rintro rfl
  exact plain entry found bracket

/-- A text that opens or closes like a label has a part that its field does not know. -/
theorem Meaning.unknownMnemonics_ne_nil {text : String} (label : looksLikeLabel text = true) :
    unknownMnemonics text ≠ [] := by
  have unknown (field : Field) (mnemonic : String)
      (part : (field, mnemonic) ∈ [(Field.dest, (Mnemonics.ofText text).dest),
        (Field.comp, (Mnemonics.ofText text).comp), (Field.jump, (Mnemonics.ofText text).jump)])
      (bracket : mnemonic.toList.head? = some '(' ∨ mnemonic.toList.getLast? = some ')') :
      unknownMnemonics text ≠ [] := by
    have missing : (field.bits? mnemonic).isNone = true := by
      rw [Field.bits?_eq_none_of_bracket field bracket, Option.isNone_none]
    exact List.ne_nil_of_mem (List.mem_filter.2 ⟨part, missing⟩)
  unfold looksLikeLabel at label
  rw [Bool.or_eq_true, beq_iff_eq, beq_iff_eq] at label
  rcases label with head | last
  · rcases Mnemonics.head?_part head with dest | comp
    · exact unknown .dest _ (by simp) (Or.inl dest)
    · exact unknown .comp _ (by simp) (Or.inl comp)
  · rcases Mnemonics.getLast?_part last with comp | jump
    · exact unknown .comp _ (by simp) (Or.inr comp)
    · exact unknown .jump _ (by simp) (Or.inr jump)

end HackAssembler
