import HackAssembler.Text.Split

/-!
# Paths as texts

A path is the text that names a file or a directory; `/` separates its components. What a path
leads to is a matter of the file store. This module holds what the text alone decides: the name at
its end, the extension of a name, and the path with another extension.
-/

set_option autoImplicit false

namespace HackAssembler.Path

def maxBytes : Nat := 4095

/-- A file name without and with what follows its last dot; the dot that starts a name is no cut. -/
def splitExtension (name : List Char) : Option (List Char × List Char) :=
  match name.reverse.dropWhile (· != '.') with
  | _ :: c :: stem => some ((c :: stem).reverse, (name.reverse.takeWhile (· != '.')).reverse)
  | _ => none

/-- The extension of a file name, if it has one. -/
def extension? (name : String) : Option String :=
  (splitExtension name.toList).map fun parts => String.ofList parts.2

/-- A path read backwards, without the `/` and `/.` at its end. -/
def dropTrailing : List Char → List Char
  | '/' :: rest => dropTrailing rest
  | '.' :: '/' :: rest => dropTrailing rest
  | path => path

/-- A path cut before and after the name at its end. -/
structure Parts where
  directory : List Char
  name : List Char
  trailing : Bool
  deriving Repr, DecidableEq

/-- Cuts a path; what stands behind the name is `/` and `/.` only, and just noted. -/
def parts (path : List Char) : Parts :=
  let body := dropTrailing path.reverse
  { directory := (body.dropWhile (· != '/')).reverse
    name := (body.takeWhile (· != '/')).reverse
    trailing := decide (body.length < path.length) }

/-- Whether a component is the name of a file or a directory, and not empty, `.` or `..`. -/
def isName (component : List Char) : Bool :=
  component != [] && component != ['.'] && component != ['.', '.']

/--
The path with its extension replaced, or with an extension added to a name that has none. What
stands behind the name is dropped. A path that ends without a name is left alone; and as the old
extension is taken off first, the name `..x` without anything behind it turns into `..` and is left
alone then.
-/
def withExtension (extension path : String) : String :=
  let ⟨directory, name, trailing⟩ := parts path.toList
  if isName name then
    match splitExtension name with
    | none => String.ofList (directory ++ name ++ '.' :: extension.toList)
    | some (stem, _) =>
      if stem = ['.'] ∧ trailing = false then String.ofList (directory ++ ['.', '.'])
      else String.ofList (directory ++ stem ++ '.' :: extension.toList)
  else path

example : withExtension "hack" "add/Add.asm" = "add/Add.hack" := by decide +kernel

example : withExtension "hack" "add/Add.asm//" = "add/Add.hack" := by decide +kernel

example : withExtension "hack" "add/.asm" = "add/.asm.hack" := by decide +kernel

example : withExtension "hack" "add/..asm" = "add/.." := by decide +kernel

def join (directory name : String) : String :=
  if directory.isEmpty || directory.toList.getLast? == some '/' then directory ++ name
  else directory ++ "/" ++ name

end HackAssembler.Path
