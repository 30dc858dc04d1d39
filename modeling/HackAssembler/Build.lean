import HackAssembler.Assembly
import HackAssembler.FileStore
import HackAssembler.Path

/-!
# Builds

Assembling files. One source is read, assembled and written out beside itself or where the caller
wants it. A directory stands for the sources directly inside it, in the order of their names; a
source that fails does not keep the others from being written.

A build that fails before it writes leaves the file store as it was.
-/

set_option autoImplicit false

namespace HackAssembler.Build

def sourceExtension : String := "asm"

def outputExtension : String := "hack"

inductive Failure where
  /-- A file or directory cannot be used. -/
  | access (path : String) (cause : AccessError)
  /-- A directory holds no source. -/
  | noSources (directory : String)
  /-- One output is asked for all sources of a directory. -/
  | outputForDirectory (directory : String)
  | assembly (path : String) (fault : Fault)
  /-- Some sources of a directory failed. -/
  | incomplete (failed total : Nat)
  deriving Repr, DecidableEq

def Failure.message : Failure → String
  | access path cause => "`" ++ path ++ "`: " ++ cause.text
  | noSources directory => "no .asm files found in `" ++ directory ++ "`"
  | outputForDirectory directory =>
    "an output file cannot be given when assembling the directory `" ++ directory ++ "`"
  | assembly path fault => "`" ++ path ++ "`: " ++ fault.message
  | incomplete failed total =>
    toString failed ++ " of " ++ toString total ++ " file(s) failed to assemble"

/-- What a build has to say. -/
inductive Event where
  | noticed (notice : Notice)
  | assembled (input output : String) (instructions : Nat)
  /-- A source of a directory failed, and the build goes on. -/
  | skipped (failure : Failure)
  deriving Repr, DecidableEq

def Event.record : Event → Record
  | noticed notice => notice.record
  | assembled input output instructions =>
    ⟨.build, .info, "assembled `" ++ input ++ "` => `" ++ output ++ "` (" ++
      toString instructions ++ " instruction(s))"⟩
  | skipped failure => ⟨.build, .error, failure.message⟩

/-- A build, or a part of it. -/
abbrev Run := Traced Event Failure

structure Product where
  input : String
  output : String
  listing : Listing
  deriving Repr, DecidableEq

/-- Where the words of a source go if the caller does not say. -/
def outputPath (input : String) : String := Path.withExtension outputExtension input

variable {m : Type → Type} [Monad m] [FileStore m]

/-- Whether the name of a file is that of a source. -/
def isSourceName (name : String) : Bool := Path.extension? name == some sourceExtension

/-- The paths of the sources directly inside a directory, in the order of their names. -/
def discover (directory : String) : m (Except Failure (List String)) := do
  match ← FileStore.names directory with
  | .error cause => return .error (.access directory cause)
  | .ok names =>
    let candidates := (names.filter isSourceName).mergeSort.map (Path.join directory)
    let sources ← candidates.filterM fun path => FileStore.isFile path
    return if sources.isEmpty then .error (.noSources directory) else .ok sources

def readSource (input : String) : m (Except Failure String) := do
  match ← FileStore.read input with
  | .error cause => return .error (.access input cause)
  | .ok bytes =>
    match String.fromUTF8? bytes with
    | some source => return .ok source
    | none => return .error (.access input .invalidText)

def writeListing (output : String) (listing : Listing) : m (Except Failure Unit) := do
  match ← FileStore.write output listing.wordLines.toUTF8 with
  | .error cause => return .error (.access output cause)
  | .ok () => return .ok ()

/-- Assembles one source file; nothing is written unless the whole source is assembled. -/
def assembleFile (mode : Mode) (input output : String) : m (Run Listing) := do
  match ← readSource input with
  | .error failure => return .fail failure
  | .ok source =>
    let assembly := (assemble mode source).relabel Event.noticed (Failure.assembly input)
    match assembly.outcome with
    | .error failure => return ⟨assembly.trail, .error failure⟩
    | .ok listing =>
      match ← writeListing output listing with
      | .error failure => return ⟨assembly.trail, .error failure⟩
      | .ok () =>
        return ⟨assembly.trail ++ [.assembled input output listing.size], .ok listing⟩

/-- Assembles one source of a directory; a failure is only told. -/
def attempt (mode : Mode) (input : String) : m (List Event × Option Product) := do
  let output := outputPath input
  let run ← assembleFile mode input output
  match run.outcome with
  | .ok listing => return (run.trail, some ⟨input, output, listing⟩)
  | .error failure => return (run.trail ++ [.skipped failure], none)

/-- Assembles each of some sources, and fails in the end if one of them failed. -/
def assembleAll (mode : Mode) (inputs : List String) : m (Run (List Product)) := do
  let attempts ← inputs.mapM (attempt mode)
  let events := attempts.flatMap (·.1)
  let products := attempts.filterMap (·.2)
  let failed := inputs.length - products.length
  return ⟨events, if failed = 0 then .ok products else .error (.incomplete failed inputs.length)⟩

/-- Assembles a source file, or all sources of a directory. -/
def assemblePath (mode : Mode) (input : String) (output : Option String) :
    m (Run (List Product)) := do
  if ← FileStore.isDirectory input then
    match output with
    | some _ => return .fail (.outputForDirectory input)
    | none =>
      match ← discover input with
      | .error failure => return .fail failure
      | .ok inputs => assembleAll mode inputs
  else
    let output := output.getD (outputPath input)
    let run ← assembleFile mode input output
    return (fun listing => [⟨input, output, listing⟩]) <$> run

end HackAssembler.Build
