import HackAssembler.Proofs.Grid

/-!
# What the records of the log tell

A record is a text, and what it speaks of is read back from the text, whatever the names in it are.
A line number ends at the first colon. An address is always written with four hexadecimal digits, so
in front of an address at the end of a text a name ends where the words behind it begin. Three kinds
of records give an address to a name: a label is placed, a label is moved, a variable is placed. Which
name and which addresses such a record speaks of shows from its text, and no other record looks like
one of the three (`Notice.assignment?_eq_of_record_eq`).
-/

set_option autoImplicit false

namespace HackAssembler

/-! ## Hexadecimal digits -/

namespace Text

/-- The value of a hexadecimal digit in upper case. -/
def hexValue (digit : Char) : Nat :=
  if digit.toNat < 'A'.toNat then digit.toNat - '0'.toNat else digit.toNat - 'A'.toNat + 10

/-- The number that hexadecimal digits denote. -/
def readHex (digits : List Char) : Nat := digits.foldl (fun n digit => 16 * n + hexValue digit) 0

theorem hexValue_toUpper_digitChar :
    ∀ digit < 16, hexValue (Nat.digitChar digit).toUpper = digit := by
  decide

theorem readHex_toDigits (n : Nat) : readHex ((Nat.toDigits 16 n).map Char.toUpper) = n := by
  induction n using Nat.strongRecOn with
  | ind n ih =>
    rw [Nat.toDigits_eq_if (by decide)]
    split
    · rename_i small
      simpa [readHex] using hexValue_toUpper_digitChar n small
    · have higher := ih (n / 16) (by omega)
      have last := hexValue_toUpper_digitChar (n % 16) (Nat.mod_lt n (by decide))
      simp only [readHex, List.map_append, List.map_cons, List.map_nil, List.foldl_append,
        List.foldl_cons, List.foldl_nil] at higher ⊢
      rw [higher, last]
      omega

theorem readHex_zeros_append (zeros : Nat) (digits : List Char) :
    readHex (List.replicate zeros '0' ++ digits) = readHex digits := by
  induction zeros with
  | zero => rfl
  | succ zeros ih =>
    rw [List.replicate_succ, List.cons_append]
    exact ih

theorem readHex_hexDigits (n : Nat) : readHex (hexDigits n) = n := by
  rw [hexDigits, readHex_zeros_append, readHex_toDigits]

theorem length_hexDigits {n : Nat} (small : n < 65536) : (hexDigits n).length = 4 := by
  have short : (Nat.toDigits 16 n).length ≤ 4 :=
    (Nat.length_toDigits_le_iff (by decide) (by decide)).2 small
  rw [hexDigits, List.length_append, List.length_replicate, List.length_map]
  omega

end Text

namespace Word

variable {word word' : Word} {text text' : String}

theorem hex_inj : word.hex = word'.hex ↔ word = word' := by
  constructor
  · intro same
    have digits : Text.hexDigits word.toNat = Text.hexDigits word'.toNat := by
      simpa [Word.hex, Text.hexText, String.ofList_inj] using same
    rw [← UInt16.toNat_inj, ← Text.readHex_hexDigits word.toNat, digits, Text.readHex_hexDigits]
  · rintro rfl
    rfl

theorem length_hex (word : Word) : word.hex.toList.length = 6 := by
  simp [Word.hex, Text.hexText, Text.length_hexDigits word.toNat_lt]

/-- An address at the end of a text is told from the text in front of it. -/
theorem append_hex_inj : text ++ word.hex = text' ++ word'.hex ↔ text = text' ∧ word = word' := by
  constructor
  · intro same
    have chars := congrArg String.toList same
    rw [String.toList_append, String.toList_append] at chars
    obtain ⟨front, back⟩ := List.append_inj' chars (by rw [length_hex, length_hex])
    exact ⟨String.toList_inj.1 front, hex_inj.1 (String.toList_inj.1 back)⟩
  · rintro ⟨rfl, rfl⟩
    rfl

/-- A text with an address at the end does not end like the notice of a label past the end. -/
theorem append_hex_ne_append_rom :
    text ++ word.hex ≠ text' ++ " is past the end of addressable ROM" := by
  intro same
  have filled : word.hex.toList ≠ [] := by simp [Word.hex, Text.hexText]
  have last : (text ++ word.hex).toList.getLast? = some 'M' := by
    rw [same, String.toList_append, List.getLast?_append]
    rfl
  rw [String.toList_append, List.getLast?_append_of_ne_nil _ filled] at last
  exact notMem_hexText (by decide) (by decide) word.toNat (List.mem_of_getLast? last)

end Word

/-! ## Line numbers -/

theorem onLine_inj {line line' : Nat} {text text' : String} :
    onLine line text = onLine line' text' ↔ line = line' ∧ text = text' := by
  constructor
  · intro same
    have colon (n : Nat) : ':' ∉ (toString n).toList := by
      intro found
      exact absurd (Literal.isDigit_of_mem_toString found) (by decide)
    have chars (n : Nat) (rest : String) : (onLine n rest).toList =
        "line ".toList ++ ((toString n).toList ++ ':' :: (' ' :: rest.toList)) := by
      simp [onLine]
    -- The number ends at the first colon.
    have cut (n : Nat) (rest : String) := Text.splitAtFirst_eq_some_iff.2
      ⟨(rfl : (toString n).toList ++ ':' :: (' ' :: rest.toList) = _), colon n⟩
    have behind := congrArg String.toList same
    rw [chars, chars, List.append_cancel_left_eq] at behind
    have pieces := cut line text
    rw [behind, cut line' text', Option.some.injEq, Prod.mk.injEq, List.cons.injEq,
      String.toList_inj, String.toList_inj] at pieces
    have number : line = line' := by
      rw [← Literal.value_toString line, ← pieces.1, Literal.value_toString]
    exact ⟨number, pieces.2.2.symm⟩
  · rintro ⟨rfl, rfl⟩
    rfl

/-! ## Notices -/

/-- What a name is used for when it gets an address. -/
inductive SymbolKind where
  | label
  | variable
  deriving Repr, DecidableEq

/-- A name gets an address, in place of another one that it had. -/
structure Assignment where
  kind : SymbolKind
  name : String
  previous? : Option Word
  address : Word
  deriving Repr, DecidableEq

namespace Notice

/-- The address that a notice gives to a name. -/
def assignment? : Notice → Option Assignment
  | labelPlaced name address => some ⟨.label, name, none, address⟩
  | labelMoved _ name previous address => some ⟨.label, name, some previous, address⟩
  | variablePlaced name address => some ⟨.variable, name, none, address⟩
  | labelPastEnd .. | labelsDone .. | literalCut .. | variablePastEnd .. | mnemonicReplaced ..
  | encodingDone .. => none

variable {notice notice' : Notice} {line : Nat} {name : String} {previous address : Word}

theorem eq_labelPlaced_of_record_eq
    (same : notice.record = (labelPlaced name address).record) :
    notice = labelPlaced name address := by
  obtain ⟨-, severity, text⟩ := Record.mk.inj same
  cases notice with
  | labelMoved | labelPastEnd | literalCut | variablePastEnd | mnemonicReplaced => contradiction
  | labelsDone | variablePlaced | encodingDone =>
    have head := congrArg (·.toList.head?) text
    simp [Notice.text] at head
  | labelPlaced name' address' =>
    obtain ⟨named, rfl⟩ := Word.append_hex_inj.1 text
    rw [String.append_left_inj, String.append_right_inj] at named
    rw [named]

theorem eq_variablePlaced_of_record_eq
    (same : notice.record = (variablePlaced name address).record) :
    notice = variablePlaced name address := by
  obtain ⟨-, severity, text⟩ := Record.mk.inj same
  cases notice with
  | labelMoved | labelPastEnd | literalCut | variablePastEnd | mnemonicReplaced => contradiction
  | labelsDone | labelPlaced | encodingDone =>
    have head := congrArg (·.toList.head?) text
    simp [Notice.text] at head
  | variablePlaced name' address' =>
    obtain ⟨named, rfl⟩ := Word.append_hex_inj.1 text
    rw [String.append_left_inj, String.append_right_inj] at named
    rw [named]

theorem eq_labelMoved_of_record_eq
    (same : notice.record = (labelMoved line name previous address).record) :
    notice = labelMoved line name previous address := by
  obtain ⟨-, severity, text⟩ := Record.mk.inj same
  cases notice with
  | labelPlaced | labelsDone | variablePlaced | encodingDone => contradiction
  | variablePastEnd | mnemonicReplaced =>
    have head := congrArg (·.toList.head?) (onLine_inj.1 text).2
    simp at head
  | literalCut =>
    have second := congrArg (·.toList[1]?) (onLine_inj.1 text).2
    simp at second
  | labelPastEnd => exact absurd (onLine_inj.1 text).2.symm Word.append_hex_ne_append_rom
  | labelMoved line' name' previous' address' =>
    obtain ⟨rfl, moved⟩ := onLine_inj.1 text
    -- Both addresses are cut off, the later one first; what is left is the name.
    obtain ⟨front, rfl⟩ := Word.append_hex_inj.1 moved
    rw [String.append_left_inj] at front
    obtain ⟨named, rfl⟩ := Word.append_hex_inj.1 front
    rw [String.append_left_inj, String.append_right_inj] at named
    rw [named]

/-- The record of a variable past the end is not the record of anything else. -/
theorem eq_variablePastEnd_of_record_eq
    (same : notice.record = (variablePastEnd line name).record) :
    notice = variablePastEnd line name := by
  obtain ⟨-, severity, text⟩ := Record.mk.inj same
  cases notice with
  | labelPlaced | labelsDone | variablePlaced | encodingDone => contradiction
  | labelMoved | labelPastEnd | literalCut | mnemonicReplaced =>
    have head := congrArg (·.toList.head?) (onLine_inj.1 text).2
    simp at head
  | variablePastEnd line' name' =>
    obtain ⟨rfl, named⟩ := onLine_inj.1 text
    rw [String.append_left_inj, String.append_right_inj] at named
    rw [named]

theorem assignment?_eq_some_of_record_eq {assignment : Assignment}
    (same : notice.record = notice'.record) (assigns : notice'.assignment? = some assignment) :
    notice.assignment? = some assignment := by
  cases notice' with
  | labelPlaced name address => rwa [eq_labelPlaced_of_record_eq same]
  | labelMoved line name previous address => rwa [eq_labelMoved_of_record_eq same]
  | variablePlaced name address => rwa [eq_variablePlaced_of_record_eq same]
  | labelPastEnd | labelsDone | literalCut | variablePastEnd | mnemonicReplaced | encodingDone =>
    contradiction

/-- Notices with the same record give the same address to the same name. -/
theorem assignment?_eq_of_record_eq (same : notice.record = notice'.record) :
    notice.assignment? = notice'.assignment? :=
  Option.ext fun _ => ⟨assignment?_eq_some_of_record_eq same.symm,
    assignment?_eq_some_of_record_eq same⟩

/-- What a log assigns is read back from its records. -/
theorem filterMap_assignment?_eq {trail trail' : List Notice}
    (same : trail.map record = trail'.map record) :
    trail.filterMap assignment? = trail'.filterMap assignment? := by
  induction trail generalizing trail' with
  | nil =>
    rw [List.map_nil, eq_comm, List.map_eq_nil_iff] at same
    rw [same]
  | cons notice rest ih =>
    obtain ⟨notice', rest', rfl, here, behind⟩ := List.map_eq_cons_iff.1 same.symm
    rw [List.filterMap_cons, assignment?_eq_of_record_eq here.symm, ih behind.symm,
      List.filterMap_cons]

end Notice

end HackAssembler
