import HackAssembler.Path

/-!
# Locations

Where things lie in a tree of directories without links. A location is the list of names on the way
from the root, so it tells at once what lies inside what. A path is a series of moves from one
location to another; its components are read here, and whether the moves can be made is a matter of
what lies there.
-/

set_option autoImplicit false

namespace HackAssembler

/-- The name of a file or directory within its directory. -/
structure FileName where
  text : String
  valid : Path.isName text.toList = true ∧ '/' ∉ text.toList
  deriving DecidableEq

namespace FileName

/-- The number of bytes that the name of a file or directory may have. -/
def maxBytes : Nat := 255

/-- Whether nothing can have a name, because it is too long. -/
def tooLong (name : FileName) : Bool := decide (maxBytes < name.text.utf8ByteSize)

end FileName

/-- The names on the way from the root to a file or directory. -/
abbrev Location := List FileName

/-- One component of a path, as a move from a directory. -/
inductive Step where
  /-- Stay in the directory: `.`. -/
  | stay
  /-- Go to the directory above: `..`. -/
  | up
  /-- Go to what has a name in the directory. -/
  | down (name : FileName)
  deriving DecidableEq

namespace Step

/-- The move that a component asks for; an empty one asks for none. -/
def ofComponent? (component : List Char) : Option Step :=
  if component = ['.'] then some stay
  else if component = ['.', '.'] then some up
  else if h : Path.isName component = true ∧ '/' ∉ component then
    some (down ⟨String.ofList component, by simpa using h⟩)
  else none

/-- Where a move leads; there is nothing above the root. -/
def target (step : Step) (here : Location) : Location :=
  match step with
  | stay => here
  | up => here.dropLast
  | down name => here ++ [name]

def ofPath (path : String) : List Step :=
  (Text.splitAtEach '/' path.toList).filterMap ofComponent?

end Step

end HackAssembler
