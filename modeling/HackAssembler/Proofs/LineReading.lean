import HackAssembler.Proofs.Stripping
import HackAssembler.Token

/-!
# What a line is read as

A line is read by what is left of it in front of its first `//`, without the blanks at both ends.
This text is empty, or a name between parentheses, or starts with an at sign, or is a computation;
these cases exclude one another, and the text is written out again from the token that it is read
as. The line need not be one that a source was cut into: it may be any text, line feeds included.
-/

set_option autoImplicit false

namespace HackAssembler

open Text

namespace Statement

variable {line text : List Char}

/-! ## What is left of a line -/

/-- The part of a line before its first `//`, or all of it. -/
def IsBeforeComment (before line : List Char) : Prop :=
  (before ++ ['/', '/'] <+: line ∧
      ∀ other, other ++ ['/', '/'] <+: line → before.length ≤ other.length) ∨
    before = line ∧ ¬ ['/', '/'] <:+: line

/-- What remains of a text when all blanks at its ends are taken away. -/
def IsTrimmed (text whole : List Char) : Prop :=
  (∃ front back, whole = front ++ text ++ back ∧ (∀ c ∈ front, isBlank c = true) ∧
      ∀ c ∈ back, isBlank c = true) ∧
    (∀ c, text.head? = some c → isBlank c = false) ∧
    ∀ c, text.getLast? = some c → isBlank c = false

theorem isBeforeComment (line : List Char) : IsBeforeComment (beforeComment line) line := by
  fun_induction beforeComment line with
  | case1 => exact Or.inr ⟨rfl, by simp⟩
  | case2 rest => exact Or.inl ⟨List.prefix_append ['/', '/'] rest, fun _ _ => Nat.zero_le _⟩
  | case3 c rest apart ih =>
    have start : ¬ ['/', '/'] <+: c :: rest := by
      rintro ⟨more, whole⟩
      obtain ⟨rfl, behind⟩ := List.cons.inj whole
      exact apart more rfl behind.symm
    -- No comment starts at the first character, so what holds behind it holds of the whole line.
    rcases ih with ⟨found, first⟩ | ⟨whole, clean⟩
    · refine Or.inl ⟨(List.prefix_cons_inj c).2 found, fun other here => ?_⟩
      cases other with
      | nil => exact absurd here start
      | cons c' other =>
        obtain ⟨-, behind⟩ := List.cons_prefix_cons.1 here
        exact Nat.succ_le_succ (first other behind)
    · refine Or.inr ⟨by rw [whole], ?_⟩
      rw [List.infix_cons_iff, not_or]
      exact ⟨start, clean⟩

theorem isTrimmed (text : List Char) : IsTrimmed (trim text) text := by
  refine ⟨⟨text.takeWhile isBlank, (text.dropWhile isBlank).rtakeWhile isBlank, ?_, ?_, ?_⟩,
    fun _ => isBlank_of_head?_trim, fun _ => isBlank_of_getLast?_trim⟩
  · rw [trim_eq_rdropWhile, List.append_assoc, List.rdropWhile_append_rtakeWhile,
      List.takeWhile_append_dropWhile]
  · exact fun c found => List.mem_takeWhile_imp found
  · exact fun c found => List.mem_rtakeWhile_imp found

/-! ## The four cases -/

/-- The name, which is not empty, stands between two parentheses, and there is nothing else in the
text. -/
def Encloses (text : List Char) (name : String) : Prop :=
  text = '(' :: (name.toList ++ [')']) ∧ name ≠ ""

/-- The text declares a label: a name stands between parentheses, and all of it on one line. -/
def Declares (text : List Char) (name : String) : Prop := Encloses text name ∧ '\n' ∉ name.toList

/-- The text loads what the operand stands for. -/
def Loads (text : List Char) (operand : String) : Prop := text = '@' :: operand.toList

theorem labelName?_eq_some_iff_declares {name : String} :
    labelName? text = some name.toList ↔ Declares text name := by
  rw [labelName?_eq_some_iff, Declares, Encloses, ne_eq, String.toList_eq_nil_iff, and_assoc]

theorem ofStripped?_of_declares {name : String} (declares : Declares text name) :
    ofStripped? text = some (label name) := by
  unfold ofStripped?
  rw [labelName?_eq_some_iff_declares.2 declares]
  simp only [String.ofList_toList]

theorem labelName?_eq_none_iff : labelName? text = none ↔ ∀ name, ¬ Declares text name := by
  rw [Option.eq_none_iff_forall_ne_some]
  constructor
  · intro unread name declares
    exact unread name.toList (labelName?_eq_some_iff_declares.2 declares)
  · intro plain name found
    apply plain (String.ofList name)
    rw [← labelName?_eq_some_iff_declares, String.toList_ofList, found]

theorem ofStripped?_of_loads {operand : String} (loads : Loads text operand) :
    ofStripped? text = some (operation (.address operand)) := by
  rw [Loads] at loads
  simp [loads, ofStripped?, labelName?]

theorem ofStripped?_of_neither (filled : text ≠ []) (plain : ∀ name, ¬ Declares text name)
    (direct : ∀ operand, ¬ Loads text operand) :
    ofStripped? text = some (operation (.compute (String.ofList text))) := by
  unfold ofStripped?
  simp only [labelName?_eq_none_iff.2 plain]
  split
  · contradiction
  · rename_i operand
    exact absurd (by simp [Loads]) (direct (String.ofList operand))
  · rfl

theorem Declares.not_loads {name operand : String} (declares : Declares text name) :
    ¬ Loads text operand := by
  rw [Loads, declares.1.1]
  simp

theorem Declares.ne_nil {name : String} (declares : Declares text name) : text ≠ [] := by
  rw [declares.1.1]
  exact List.cons_ne_nil _ _

theorem Loads.ne_nil {operand : String} (loads : Loads text operand) : text ≠ [] := by
  rw [loads]
  exact List.cons_ne_nil _ _

/-- The text is neither empty nor of one of the two marked forms. -/
def IsPlain (text : List Char) : Prop :=
  text ≠ [] ∧ (∀ name, ¬ Declares text name) ∧ ∀ operand, ¬ Loads text operand

/-- How a text is written that makes the given statement, or none. -/
def Writes (text : List Char) : Option Statement → Prop
  | none => text = []
  | some (label name) => Declares text name
  | some (operation (.address operand)) => Loads text operand
  | some (operation (.compute code)) => text = code.toList ∧ IsPlain text

/-- Every text is written in one of the four ways, and read as what it is written for. -/
theorem writes_ofStripped? (text : List Char) : Writes text (ofStripped? text) := by
  by_cases empty : text = []
  · rw [empty]
    exact rfl
  by_cases declares : ∃ name, Declares text name
  · obtain ⟨name, declares⟩ := declares
    rw [ofStripped?_of_declares declares]
    exact declares
  by_cases loads : ∃ operand, Loads text operand
  · obtain ⟨operand, loads⟩ := loads
    rw [ofStripped?_of_loads loads]
    exact loads
  rw [not_exists] at declares loads
  rw [ofStripped?_of_neither empty declares loads]
  exact ⟨String.toList_ofList.symm, empty, declares, loads⟩

/-- A text is read as a statement exactly if it is written for it. -/
theorem ofStripped?_eq_iff {result : Option Statement} :
    ofStripped? text = result ↔ Writes text result := by
  constructor
  · rintro rfl
    exact writes_ofStripped? text
  · intro writes
    match result, writes with
    | none, writes =>
      rw [Writes] at writes
      rw [writes]
      rfl
    | some (label name), writes => exact ofStripped?_of_declares writes
    | some (operation (.address operand)), writes => exact ofStripped?_of_loads writes
    | some (operation (.compute code)), ⟨same, filled, plain, direct⟩ =>
      rw [ofStripped?_of_neither filled plain direct, same, String.ofList_toList]

end Statement

/-! ## Lines -/

namespace Token

open Statement

variable {number : Nat} {line : List Char}

theorem ofLine?_eq_some_iff {statement : Statement} :
    ofLine? number line = some ⟨number, statement⟩ ↔
      ofStripped? (strip line) = some statement := by
  simp [ofLine?, Statement.ofLine?]

theorem ofLine?_eq_none_iff : ofLine? number line = none ↔ ofStripped? (strip line) = none := by
  rw [ofLine?, Option.map_eq_none_iff, Statement.ofLine?]

/-- The text of a token makes the same token again. -/
theorem ofLine?_text {token : Token} (read : ofLine? number line = some token) :
    token.line = number ∧ token.item.text.toList = strip line ∧
      ofLine? number token.item.text.toList = some token := by
  obtain ⟨statement, made, rfl⟩ := Option.map_eq_some_iff.1 read
  have text : statement.text.toList = strip line := toList_text_of_ofStripped? made
  refine ⟨rfl, text, ?_⟩
  rw [ofLine?_eq_some_iff, text, strip_strip]
  exact made

/-- A line is read by the text that is left of it in front of its first `//` without the blanks at
both ends. It gives no token if this text is empty; a label if the text is a name between
parentheses, which is not empty and holds no line feed; an address if the text starts with an at
sign, which the operand follows as it stands; and a computation, which is all of the text, in any
other case. The forms exclude one another. The text, which holds no `//`, is written out again from
the token, and is read as this token again. -/
theorem ofLine?_reads (line : String) (number : Nat) :
    let text := strip line.toList
    let token? := ofLine? number line.toList
    (∃ before, IsBeforeComment before line.toList ∧ IsTrimmed text before) ∧
      (token? = none ↔ text = []) ∧
      (∀ name, token? = some ⟨number, .label name⟩ ↔ Declares text name) ∧
      (∀ operand, token? = some ⟨number, .operation (.address operand)⟩ ↔ Loads text operand) ∧
      (∀ code, token? = some ⟨number, .operation (.compute code)⟩ ↔
        text = code.toList ∧ IsPlain text) ∧
      (∀ name, Declares text name → text ≠ [] ∧ ∀ operand, ¬ Loads text operand) ∧
      (∀ operand, Loads text operand → text ≠ []) ∧
      ∀ token, token? = some token →
        token.line = number ∧ token.item.text.toList = text ∧ ¬ ['/', '/'] <:+: text ∧
          ofLine? number token.item.text.toList = some token := by
  refine ⟨⟨beforeComment line.toList, isBeforeComment _, isTrimmed _⟩, ?_, fun name => ?_,
    fun operand => ?_, fun code => ?_, fun name declares => ?_, fun operand loads => loads.ne_nil,
    fun token read => ?_⟩
  · exact ofLine?_eq_none_iff.trans ofStripped?_eq_iff
  · exact ofLine?_eq_some_iff.trans ofStripped?_eq_iff
  · exact ofLine?_eq_some_iff.trans ofStripped?_eq_iff
  · exact ofLine?_eq_some_iff.trans ofStripped?_eq_iff
  · exact ⟨declares.ne_nil, fun operand => declares.not_loads⟩
  · obtain ⟨place, same, again⟩ := ofLine?_text read
    exact ⟨place, same, not_infix_strip _, again⟩

/-- Only the outermost parentheses of a label are taken off, and a slash alone is no comment. -/
theorem ofLine?_reads_nested_parentheses :
    Declares (strip "\t(a/(b))///(c)\n".toList) "a/(b)" ∧
      ofLine? 7 "\t(a/(b))///(c)\n".toList = some ⟨7, .label "a/(b)"⟩ ∧
      ofLine? 7 "(a/(b))".toList = some ⟨7, .label "a/(b)"⟩ := by
  have declares : Declares (strip "\t(a/(b))///(c)\n".toList) "a/(b)" :=
    ⟨⟨by decide +kernel, by decide⟩, by decide +kernel⟩
  obtain ⟨-, -, labels, -, -, -, -, again⟩ := ofLine?_reads "\t(a/(b))///(c)\n" 7
  have read := (labels "a/(b)").2 declares
  exact ⟨declares, read, (again _ read).2.2.2⟩

end Token

end HackAssembler
