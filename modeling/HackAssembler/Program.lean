import HackAssembler.Build
import HackAssembler.CommandLine

/-!
# The program

What a call of the program prints and how it ends. The records of the log come first, as far as the
verbosity lets them through; the listings follow if the user asks for them and all went well.
-/

set_option autoImplicit false

namespace HackAssembler.Program

/-- What a call of the program prints, and the code that it ends with. -/
structure Report where
  exitCode : Nat
  output : String
  deriving Repr, DecidableEq

def versionText : String := "hackasm 0.1.0"

def helpText : String := versionText ++ "
Nicolas 'Montessquio' Suarez <nsuarez@kernelstack.net>
A two-pass assembler for the Hack 16-bit instruction set.

USAGE:
    hackasm [FLAGS] [OPTIONS] <INPUT>

FLAGS:
    -h, --help       Prints help information
    -d, --show       prints the listing alongside the assembly to STDOUT
    -s, --strict     reject unknown mnemonics, malformed or duplicate labels and out-of-range addresses
    -V, --version    Prints version information
    -v               Sets the level of verbosity

OPTIONS:
    -o <output>        write output to an outfile (single input file only)

ARGS:
    <INPUT>    Sets the input .asm file, or a directory of them"

def argumentsRecord (job : CommandLine.Job) : Record :=
  ⟨.program, .debug, "Arguments:\n\tVerbosity: " ++ (CommandLine.threshold job.verbosity).name ++
    "\n\tStrict: " ++ (if job.strict then "true" else "false") ++ "\n\tOutfile: " ++
    job.output.getD "None" ++ "\n\tInput: " ++ job.input⟩

def fatalRecord (failure : Build.Failure) : Record :=
  ⟨.program, .error, "fatal: " ++ failure.message⟩

/-- The records that a threshold lets through, a line each. -/
def printRecords (threshold : Severity) (records : List Record) : String :=
  String.join ((Record.admitted threshold records).map fun record => record.render ++ "\n")

/-- The listings of what was built, each under its input. -/
def printListings (products : List Build.Product) : String :=
  String.join (products.map fun product =>
    product.input ++ ":\n" ++ product.listing.grid ++ "\n")

variable {m : Type → Type} [Monad m] [FileStore m]

def runJob (job : CommandLine.Job) : m Report := do
  let mode := if job.strict then .strict else .lenient
  let threshold := CommandLine.threshold job.verbosity
  let run ← Build.assemblePath mode job.input job.output
  let records := argumentsRecord job :: run.trail.map Build.Event.record
  match run.outcome with
  | .error failure => return ⟨1, printRecords threshold (records ++ [fatalRecord failure])⟩
  | .ok products =>
    let listings := if job.showListing then printListings products else ""
    return ⟨0, printRecords threshold records ++ listings⟩

/-- Does what some arguments ask for. -/
def run (arguments : List String) : m Report :=
  match CommandLine.parse arguments with
  | .help => return ⟨0, helpText ++ "\n"⟩
  | .version => return ⟨0, versionText ++ "\n"⟩
  | .invalid => return ⟨1, ""⟩
  | .run job => runJob job

end HackAssembler.Program
