/-!
# Lines of a text

A line ends at a line feed. One carriage return directly before that line feed belongs to the line
ending and not to the line, and a text that ends with a line feed has no empty last line.

The lines are built from the end of the text backwards, one character at a time. The equations
below say what each kind of character adds in front of a text, and are all that is needed to reason
about `lines`.
-/

set_option autoImplicit false

namespace HackAssembler.Text

/-- The lines of a text, and whether the text starts with a line feed. -/
structure Lines where
  all : List (List Char)
  startsWithFeed : Bool

namespace Lines

def empty : Lines := ⟨[], false⟩

/-- Puts one character in front of a text. -/
def extend (c : Char) (rest : Lines) : Lines :=
  if c = '\n' then ⟨[] :: rest.all, true⟩
  else if c = '\r' ∧ rest.startsWithFeed = true then ⟨rest.all, false⟩
  else match rest.all with
    | [] => ⟨[[c]], false⟩
    | line :: more => ⟨(c :: line) :: more, false⟩

def read (text : List Char) : Lines := text.foldr extend empty

theorem startsWithFeed_read (text : List Char) :
    (read text).startsWithFeed = decide (text.head? = some '\n') := by
  cases text with
  | nil => rfl
  | cons c rest =>
    simp only [read, List.foldr_cons, extend, List.head?_cons, Option.some.injEq]
    by_cases feed : c = '\n'
    · simp [feed]
    · by_cases drop : c = '\r' ∧ (rest.foldr extend empty).startsWithFeed = true
      · simp [drop]
      · rw [if_neg feed, if_neg drop]
        cases (rest.foldr extend empty).all <;> simp [feed]

end Lines

/-- The lines of a text, in order and without their endings. -/
def lines (text : List Char) : List (List Char) := (Lines.read text).all

@[simp] theorem lines_feed (rest : List Char) : lines ('\n' :: rest) = [] :: lines rest := by
  simp [lines, Lines.read, Lines.extend]

@[simp] theorem lines_return_feed (rest : List Char) :
    lines ('\r' :: '\n' :: rest) = [] :: lines rest := by
  simp [lines, Lines.read, Lines.extend]

/-- A character that is no part of a line ending goes in front of the first line. -/
theorem lines_cons {c : Char} {rest : List Char} (feed : c ≠ '\n')
    (kept : c ≠ '\r' ∨ rest.head? ≠ some '\n') :
    lines (c :: rest) = match lines rest with
      | [] => [[c]]
      | line :: more => (c :: line) :: more := by
  have kept : ¬ (c = '\r' ∧ (Lines.read rest).startsWithFeed = true) := by
    rw [Lines.startsWithFeed_read]
    rcases kept with h | h <;> simp [h]
  have step : Lines.read (c :: rest) = Lines.extend c (Lines.read rest) := rfl
  rw [lines, step, Lines.extend, if_neg feed, if_neg kept]
  cases h : (Lines.read rest).all <;> simp [lines, h]

end HackAssembler.Text
