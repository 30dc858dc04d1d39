/-!
# Splitting at a separator

A text is cut at the first occurrence of a separator. The two pieces and the separator make up the
text again, and the first piece does not hold the separator.
-/

set_option autoImplicit false

namespace HackAssembler.Text

/-- What stands before and after the first `separator`, if there is one. -/
def splitAtFirst (separator : Char) (text : List Char) : Option (List Char × List Char) :=
  match text.dropWhile (· != separator) with
  | [] => none
  | _ :: after => some (text.takeWhile (· != separator), after)

/-- The pieces between the separators; there is one more of them than there are separators. -/
def splitAtEach (separator : Char) (text : List Char) : List (List Char) :=
  text.foldr
    (fun c pieces =>
      if c = separator then [] :: pieces
      else match pieces with
        | [] => [[c]]
        | piece :: more => (c :: piece) :: more)
    [[]]

theorem splitAtFirst_cons (separator c : Char) (text : List Char) :
    splitAtFirst separator (c :: text) =
      if c = separator then some ([], text)
      else (splitAtFirst separator text).map fun pieces => (c :: pieces.1, pieces.2) := by
  by_cases here : c = separator
  · simp [splitAtFirst, here]
  · have keep : (c != separator) = true := bne_iff_ne.2 here
    cases h : text.dropWhile (· != separator) <;> simp [splitAtFirst, here, keep, h]

theorem splitAtFirst_eq_some_iff {separator : Char} {text before after : List Char} :
    splitAtFirst separator text = some (before, after) ↔
      text = before ++ separator :: after ∧ separator ∉ before := by
  induction text generalizing before with
  | nil => simp [splitAtFirst]
  | cons c rest ih =>
    rw [splitAtFirst_cons]
    by_cases here : c = separator
    · cases before with
      | nil => simp [here]
      | cons b more => simp [here]; intro h; simp [h]
    · cases before with
      | nil => simp [here]
      | cons b more =>
        simp only [here, if_false, Option.map_eq_some_iff, Prod.exists, Prod.mk.injEq,
          List.cons.injEq, List.cons_append, List.mem_cons, not_or]
        constructor
        · rintro ⟨a, b', h, ⟨rfl, rfl⟩, rfl⟩
          obtain ⟨rfl, clean⟩ := ih.1 h
          exact ⟨⟨rfl, rfl⟩, Ne.symm here, clean⟩
        · rintro ⟨⟨rfl, rfl⟩, -, clean⟩
          exact ⟨more, after, ih.2 ⟨rfl, clean⟩, ⟨rfl, rfl⟩, rfl⟩

theorem splitAtFirst_eq_none_iff {separator : Char} {text : List Char} :
    splitAtFirst separator text = none ↔ separator ∉ text := by
  induction text with
  | nil => simp [splitAtFirst]
  | cons c rest ih =>
    rw [splitAtFirst_cons]
    by_cases here : c = separator
    · simp [here]
    · simp [here, ih, Ne.symm here]

end HackAssembler.Text
