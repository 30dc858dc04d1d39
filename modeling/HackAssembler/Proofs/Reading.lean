import HackAssembler.Mnemonic
import HackAssembler.Proofs.LineReading
import HackAssembler.Proofs.Lines
import HackAssembler.Proofs.Numeral

/-!
# Texts read back

A source that is written statement by statement, each on a line of its own, is read back as these
statements (`Token.ofSource_source`), provided that every one of them can stand on a line by
itself. An operation can, as soon as its text is made of characters that are neither blank nor used
by comments and labels, and a computation does not start like an address. Numerals and mnemonics
are read back in the same way.
-/

set_option autoImplicit false

namespace HackAssembler

namespace Text

theorem trim_eq_self {text : List Char} (clean : ∀ c ∈ text, isBlank c = false) :
    trim text = text :=
  trim_eq_self_of_ends (fun c start => clean c (List.mem_of_head? start))
    (fun c last => clean c (List.mem_of_getLast? last))

/-- Whether a character is neither blank nor used by comments and labels. -/
def isInk (c : Char) : Bool := !isBlank c && c != '/' && c != '(' && c != ')'

theorem isBlank_of_isInk {c : Char} (ink : isInk c = true) : isBlank c = false := by
  simp_all [isInk]

theorem feed_notMem_of_isInk {line : List Char} (ink : ∀ c ∈ line, isInk c = true) :
    '\n' ∉ line := by
  intro found
  exact absurd (ink _ found) (by decide)

theorem isInk_of_isDigit {c : Char} (digit : c.isDigit = true) : isInk c = true := by
  have bounds : 48 ≤ c.toNat ∧ c.toNat ≤ 57 := by
    simpa [Char.isDigit, UInt32.le_iff_toNat_le] using digit
  have solid : isBlank c = false := by
    rw [Bool.eq_false_iff, ne_eq, isBlank, CodeRange.anyHolds_iff]
    simp [blankTable, CodeRange.only]
    omega
  have other (mark : Char) (above : mark.toNat < 48) : c ≠ mark := by
    rintro rfl
    omega
  simp [isInk, solid, other '/' (by decide), other '(' (by decide), other ')' (by decide)]

end Text

namespace Statement

open Text

theorem strip_eq_self {line : List Char} (ink : ∀ c ∈ line, isInk c = true) :
    strip line = line := by
  have clean : ¬ ['/', '/'] <:+: line := by
    intro found
    exact absurd (ink '/' (found.subset List.mem_cons_self)) (by decide)
  rw [strip, beforeComment_eq_self_of_not_infix clean]
  exact trim_eq_self fun c found => isBlank_of_isInk (ink c found)

theorem ofLine?_address {operand : String} (ink : ∀ c ∈ operand.toList, isInk c = true) :
    ofLine? (Operation.address operand).text.toList = some (operation (.address operand)) := by
  have line : (Operation.address operand).text.toList = '@' :: operand.toList := by
    simp [Operation.text]
  have inked : ∀ c ∈ '@' :: operand.toList, isInk c = true :=
    List.forall_mem_cons.2 ⟨by decide, ink⟩
  rw [line, ofLine?, strip_eq_self inked]
  exact ofStripped?_of_loads rfl

theorem ofLine?_compute {text : String} (ink : ∀ c ∈ text.toList, isInk c = true)
    (stated : text ≠ "") (sign : text.toList.head? ≠ some '@') :
    ofLine? text.toList = some (operation (.compute text)) := by
  have filled : text.toList ≠ [] := fun empty => stated (String.toList_eq_nil_iff.1 empty)
  have plain : ∀ name, ¬ Declares text.toList name := by
    intro name declares
    have bracket : '(' ∈ text.toList := by
      rw [declares.1.1]
      exact List.mem_cons_self
    exact absurd (ink '(' bracket) (by decide)
  have direct : ∀ operand, ¬ Loads text.toList operand := by
    intro operand loads
    apply sign
    rw [loads, List.head?_cons]
  rw [ofLine?, strip_eq_self ink, ofStripped?_of_neither filled plain direct, String.ofList_toList]

/-- A label may have any characters in its name but a line feed and what starts a comment. -/
theorem ofLine?_label {name : String} (named : name ≠ "") (unbroken : '\n' ∉ name.toList)
    (uncommented : ¬ ['/', '/'] <:+: name.toList) :
    ofLine? (label name).text.toList = some (label name) := by
  have line : (label name).text.toList = '(' :: (name.toList ++ [')']) := by simp [text]
  have clean : ¬ ['/', '/'] <:+: '(' :: (name.toList ++ [')']) := by
    rw [List.infix_cons_iff, List.infix_concat_iff]
    rintro (first | last | inside)
    · exact absurd (List.cons_prefix_cons.1 first).1 (by decide)
    · exact absurd (List.reverse_prefix.2 last) (by simp)
    · exact uncommented inside
  have kept : strip ('(' :: (name.toList ++ [')'])) = '(' :: (name.toList ++ [')']) := by
    rw [strip, beforeComment_eq_self_of_not_infix clean]
    apply trim_eq_self_of_ends
    · rintro c ⟨⟩
      decide
    · intro c last
      rw [← List.cons_append, List.getLast?_concat] at last
      obtain rfl := Option.some.inj last
      decide
  rw [line, ofLine?, kept]
  exact ofStripped?_of_declares ⟨⟨rfl, named⟩, unbroken⟩

theorem looksLikeLabel_eq_false {text : String} (ink : ∀ c ∈ text.toList, isInk c = true) :
    looksLikeLabel text = false := by
  have opens : text.toList.head? ≠ some '(' := by
    intro start
    exact absurd (ink _ (List.mem_of_head? start)) (by decide)
  have closes : text.toList.getLast? ≠ some ')' := by
    intro last
    exact absurd (ink _ (List.mem_of_getLast? last)) (by decide)
  simp [looksLikeLabel, opens, closes]

/-- The text of some statements, each on a line of its own. -/
def source (statements : List Statement) : String :=
  String.join (statements.map (·.text ++ "\n"))

/-- A statement that is read from its own text has no comment and no outer blank in it. -/
theorem strip_text {statement : Statement}
    (read : ofLine? statement.text.toList = some statement) :
    strip statement.text.toList = statement.text.toList :=
  (toList_text_of_ofStripped? read).symm

theorem said_text {statement : Statement} (number : Nat)
    (read : ofLine? statement.text.toList = some statement) :
    said number statement.text.toList = [⟨number, statement.text.toList⟩] := by
  have stripped := strip_text read
  have filled : statement.text.toList ≠ [] := by
    intro empty
    rw [empty] at read
    contradiction
  rw [said, stripped, if_neg filled]

end Statement

variable {statements : List Statement}

/-- A source made of statements says these statements, if each of them can stand on a line. -/
theorem strippedLines_source
    (clean : ∀ statement ∈ statements, '\n' ∉ statement.text.toList)
    (read : ∀ statement ∈ statements, Statement.ofLine? statement.text.toList = some statement) :
    strippedLines (Statement.source statements) =
      (statements.zipIdx 1).map fun placed => ⟨placed.2, placed.1.text.toList⟩ := by
  have whole : (Statement.source statements).toList =
      (statements.map (·.text.toList)).flatMap (· ++ ['\n']) := by
    simp [Statement.source, String.toList_join, List.flatMap_map]
  have clean' : ∀ text ∈ statements.map (·.text.toList), '\n' ∉ text := by
    intro text found
    obtain ⟨statement, member, rfl⟩ := List.mem_map.1 found
    exact clean statement member
  rw [strippedLines, whole, Statement.saidFrom_flatMap clean', List.zipIdx_map, List.flatMap_map,
    List.map_eq_flatMap]
  apply List.flatMap_congr
  rintro ⟨statement, number⟩ found
  exact Statement.said_text number (read statement (List.fst_mem_of_mem_zipIdx found))

/-- A source made of statements is read back as these statements. -/
theorem Token.ofSource_source
    (clean : ∀ statement ∈ statements, '\n' ∉ statement.text.toList)
    (read : ∀ statement ∈ statements, Statement.ofLine? statement.text.toList = some statement) :
    ofSource (Statement.source statements) =
      (statements.zipIdx 1).map fun placed => ⟨placed.2, placed.1⟩ := by
  rw [ofSource_eq_filterMap, strippedLines_source clean read, List.filterMap_map,
    List.filterMap_eq_map_iff_forall_eq_some]
  rintro ⟨statement, number⟩ found
  have stated := read statement (List.fst_mem_of_mem_zipIdx found)
  rw [Statement.ofLine?, Statement.strip_text stated] at stated
  simp [ofStripped?, stated]

end HackAssembler
