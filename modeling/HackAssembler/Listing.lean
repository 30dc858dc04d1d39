import HackAssembler.Instruction
import HackAssembler.Text.Grid

/-!
# Listings

An assembled program: its instructions in order, each with the place that it takes, the line that
it comes from and the text of that line. A listing is written out as words, one a line, or as a
grid for reading.
-/

set_option autoImplicit false

namespace HackAssembler

/-- An assembled instruction beside its source. -/
structure Entry where
  address : Nat
  line : Nat
  source : String
  instruction : Instruction
  deriving Repr, DecidableEq

def Entry.cells (entry : Entry) : List String :=
  [Text.hexText entry.address ++ ":", entry.source, "=>", entry.instruction.text]

structure Listing where
  entries : List Entry
  deriving Repr, DecidableEq

namespace Listing

def size (listing : Listing) : Nat := listing.entries.length

def isEmpty (listing : Listing) : Bool := listing.entries.isEmpty

/-- The machine words, each as sixteen binary digits. -/
def words (listing : Listing) : List String :=
  listing.entries.map fun entry => entry.instruction.text

/-- The machine words, each on a line of its own. -/
def wordLines (listing : Listing) : String := String.join (listing.words.map (· ++ "\n"))

/-- The entries in columns: address, source and machine word. -/
def grid (listing : Listing) : String :=
  String.ofList (Text.Grid.render (listing.entries.map fun entry =>
    entry.cells.map String.toList))

end Listing

end HackAssembler
