import HackAssembler.Disk

/-!
# Changes of a disk

What differs between two states of a disk, seen from the directory that the first one works in.
Each difference is told once, under the path from that directory.
-/

set_option autoImplicit false

namespace HackAssembler.Disk

/-- What has become of a path. -/
inductive Change where
  /-- A file is new or has another content. -/
  | written (content : ByteArray)
  | made
  | gone

/-- The path from a directory to a location below it. -/
def pathBelow? (directory location : Location) : Option String :=
  if directory.isPrefixOf location ∧ directory ≠ location then
    some ("/".intercalate ((location.drop directory.length).map FileName.text))
  else none

/-- What was written, made or lost between two states, in the order of the tables. -/
def changes (before after : Disk) : List (String × Change) :=
  let kept := after.nodes.filterMap fun (location, node) => do
    let path ← pathBelow? before.current location
    if before.node? location = some node then none
    else match node with
      | .file content => some (path, .written content)
      | .directory => some (path, .made)
  let lost := before.nodes.filterMap fun (location, _) => do
    let path ← pathBelow? before.current location
    if (after.node? location).isSome then none else some (path, .gone)
  kept ++ lost

end HackAssembler.Disk
