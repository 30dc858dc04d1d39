import HackAssembler.Program

/-!
# The executable

The file store of the operating system, and the entry point. This is the only module that performs
input and output; what is to be done is decided by `Program.run`.
-/

set_option autoImplicit false

namespace HackAssembler

/-- The number of an error of the operating system, which comes as it is or negated. -/
def systemNumber (code : UInt32) : Nat := min code.toNat (0 - code).toNat

/-- The cause that an error of the operating system stands for. -/
def AccessError.ofSystem : IO.Error → AccessError
  | .noFileOrDirectory .. => .notFound
  | .inappropriateType _ code _ =>
    if systemNumber code = 21 then .isDirectory else .notDirectory
  | .invalidArgument _ code details =>
    if systemNumber code = 36 then .nameTooLong else .system details (systemNumber code)
  | .permissionDenied _ code _ => .system "Permission denied" (systemNumber code)
  | .alreadyExists _ code _ => .system "File exists" (systemNumber code)
  | .resourceExhausted _ code _ => .system "No space left on device" (systemNumber code)
  | error => .system (toString error) 5

/-- A path in the form that the standard library takes, as the root of a directory entry. -/
def systemPath (path : String) : IO.FS.DirEntry := { root := path, fileName := "" }

/-- What an action on a path answers, or why it failed or is not even tried. -/
def attemptAccess {α : Type} (path : String) (action : IO.FS.DirEntry → IO α) :
    IO (Except AccessError α) := do
  match AccessError.ofPath? path with
  | some cause => return .error cause
  | none =>
    try
      return .ok (← action (systemPath path))
    catch error =>
      return .error (.ofSystem error)

/-- The kind of what a path leads to, if it leads anywhere. -/
def systemKind? (path : String) : IO (Option IO.FS.FileType) := do
  match ← attemptAccess path (·.root.metadata) with
  | .ok metadata => return some metadata.type
  | .error _ => return none

instance : FileStore IO where
  isDirectory path := return (← systemKind? path) == some .dir
  isFile path := return (← systemKind? path) == some .file
  names path := attemptAccess path fun place => do
    return (← place.root.readDir).toList.map (·.fileName)
  read path := attemptAccess path fun place => IO.FS.readBinFile place.root
  write path content := attemptAccess path fun place => IO.FS.writeBinFile place.root content

end HackAssembler

/-- Does what the arguments ask for, and prints what there is to say. -/
def main (arguments : List String) : IO UInt32 := do
  let report ← HackAssembler.Program.run arguments
  IO.print report.output
  return report.exitCode.toUInt32
