/-!
# Ranges of code points

Sets of characters, written down as tables of code point ranges. Membership is decided by one pass
over the table, so a table can be read against the property that it states.
-/

set_option autoImplicit false

namespace HackAssembler.Text

/-- The code points from `first` to `last`, both included. -/
structure CodeRange where
  first : Nat
  last : Nat
  deriving Repr, DecidableEq

namespace CodeRange

def only (code : Nat) : CodeRange := ⟨code, code⟩

/-- Whether a range holds the code point of a character. -/
def holds (range : CodeRange) (c : Char) : Bool :=
  decide (range.first ≤ c.toNat) && decide (c.toNat ≤ range.last)

/-- The number of code points in the ranges of a table that is in order. -/
def count (table : List CodeRange) : Nat :=
  table.foldr (fun range others => range.last + 1 - range.first + others) 0

/-- Whether the ranges of a table are in order, and no two could be written as one. -/
def ascending : List CodeRange → Bool
  | [] => true
  | [range] => decide (range.first ≤ range.last)
  | range :: next :: more =>
    decide (range.first ≤ range.last) && decide (range.last + 1 < next.first) &&
      ascending (next :: more)

def anyHolds (table : List CodeRange) (c : Char) : Bool := table.any (·.holds c)

theorem anyHolds_iff {table : List CodeRange} {c : Char} :
    anyHolds table c = true ↔
      ∃ range ∈ table, range.first ≤ c.toNat ∧ c.toNat ≤ range.last := by
  simp [anyHolds, holds]

end CodeRange

end HackAssembler.Text
