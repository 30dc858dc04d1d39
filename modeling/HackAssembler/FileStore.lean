import HackAssembler.Path

/-!
# File stores

What the program asks of the place where files are kept. Files hold bytes and are found by path; a
request that cannot be met answers with its cause. Some texts are no paths at all: every store
refuses them, whatever it holds.
-/

set_option autoImplicit false

namespace HackAssembler

/-- Why a file or directory cannot be used. -/
inductive AccessError where
  | notFound
  /-- The path needs a directory where there is none. -/
  | notDirectory
  | isDirectory
  /-- The path, or a name in it, is longer than a path or a name may be. -/
  | nameTooLong
  /-- The path holds the character NUL, which ends a path for the system. -/
  | nulInPath
  /-- The bytes are not the encoding of a text. -/
  | invalidText
  /-- Another cause, which the system describes and numbers. -/
  | system (description : String) (code : Nat)
  deriving Repr, DecidableEq

namespace AccessError

/-- A cause as the system describes and numbers it. -/
def describe (description : String) (code : Nat) : String :=
  description ++ " (os error " ++ toString code ++ ")"

def text : AccessError → String
  | notFound => describe "No such file or directory" 2
  | notDirectory => describe "Not a directory" 20
  | isDirectory => describe "Is a directory" 21
  | nameTooLong => describe "File name too long" 36
  | nulInPath => "file name contained an unexpected NUL byte"
  | invalidText => "stream did not contain valid UTF-8"
  | system description code => describe description code

/-- Why a text is refused as a path before anything is looked up, if it is. -/
def ofPath? (path : String) : Option AccessError :=
  if '\x00' ∈ path.toList then some nulInPath
  else if path.isEmpty then some notFound
  else if Path.maxBytes < path.utf8ByteSize then some nameTooLong
  else none

end AccessError

/-- A place that keeps files, used from within `m`. -/
class FileStore (m : Type → Type) where
  isDirectory : String → m Bool
  isFile : String → m Bool
  /-- The names in a directory, in the order of the store. -/
  names : String → m (Except AccessError (List String))
  /-- The content of a file. -/
  read : String → m (Except AccessError ByteArray)
  /-- Creates a file or replaces its content. -/
  write : String → ByteArray → m (Except AccessError Unit)

end HackAssembler
