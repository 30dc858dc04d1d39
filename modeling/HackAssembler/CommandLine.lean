import HackAssembler.Log

/-!
# Command line arguments

The arguments are read from left to right. An argument that starts with `--` is a long option, one
that starts with `-` and goes on is a group of short options, and `--` alone ends the options. All
other arguments stand for themselves: as the value of an option `-o` that waits for one, or as the
input.

Help, the version and an unknown argument end the reading at once. What is missing or given twice
is found only when all arguments have been read, so a later `--help` still helps.
-/

set_option autoImplicit false

namespace HackAssembler.CommandLine

/-- What the user asks to be assembled, and how. -/
structure Job where
  input : String
  output : Option String
  strict : Bool
  showListing : Bool
  verbosity : Nat
  deriving Repr, DecidableEq

/-- What the user asks for. -/
inductive Request where
  | help
  | version
  | run (job : Job)
  /-- The arguments make no sense. -/
  | invalid
  deriving Repr, DecidableEq

/-- The arguments read so far. -/
structure Draft where
  input : Option String
  /-- The values of the options `-o`, where one may be missing. -/
  outputs : List (Option String)
  strict : Nat
  showListing : Nat
  verbosity : Nat
  deriving Repr, DecidableEq

namespace Draft

/-- Before the first argument nothing is asked for. -/
def start : Draft := ⟨none, [], 0, 0, 0⟩

def addOutput (draft : Draft) (value : Option String) : Draft :=
  { draft with outputs := value :: draft.outputs }

/-- Takes an argument that stands for itself; there is one input only. -/
def addInput (draft : Draft) (input : String) : Except Request Draft :=
  match draft.input with
  | none => .ok { draft with input }
  | some _ => .error .invalid

/-- The request that the arguments amount to when all are read. -/
def finish (draft : Draft) : Request :=
  if draft.strict ≤ 1 ∧ draft.showListing ≤ 1 then
    match draft.input, draft.outputs with
    | some input, [] =>
      .run ⟨input, none, draft.strict == 1, draft.showListing == 1, draft.verbosity⟩
    | some input, [some output] =>
      .run ⟨input, some output, draft.strict == 1, draft.showListing == 1, draft.verbosity⟩
    | _, _ => .invalid
  else .invalid

end Draft

/-- Reads a long option; what follows a `=` does not matter. -/
def readLong (draft : Draft) (argument : List Char) : Except Request Draft :=
  match String.ofList ((argument.dropWhile (· == '-')).takeWhile (· != '=')) with
  | "help" => .error .help
  | "version" => .error .version
  | "strict" => .ok { draft with strict := draft.strict + 1 }
  | "show" => .ok { draft with showListing := draft.showListing + 1 }
  | _ => .error .invalid

/-- Reads a group of short options, and tells whether a last `-o` waits for its value. -/
def readShort (draft : Draft) : List Char → Except Request (Draft × Bool)
  | [] => .ok (draft, false)
  | 'o' :: [] => .ok (draft, true)
  | 'o' :: value =>
    .ok (draft.addOutput (some (String.ofList (value.dropWhile (· == '=')))), false)
  | 'h' :: _ => .error .help
  | 'V' :: _ => .error .version
  | 's' :: more => readShort { draft with strict := draft.strict + 1 } more
  | 'd' :: more => readShort { draft with showListing := draft.showListing + 1 } more
  | 'v' :: more => readShort { draft with verbosity := draft.verbosity + 1 } more
  | _ :: _ => .error .invalid

/-- Reads an option, and tells whether it waits for its value; any other argument is none. -/
def readOption? (draft : Draft) (argument : String) : Option (Except Request (Draft × Bool)) :=
  match argument.toList with
  | '-' :: '-' :: _ => some ((readLong draft argument.toList).map fun draft => (draft, false))
  | '-' :: c :: more => some (readShort draft (c :: more))
  | _ => none

/-- Reads the arguments from some point on, where an option `-o` may wait for its value. -/
def readArguments (draft : Draft) (waiting : Bool) : List String → Except Request Draft
  | [] => .ok (if waiting then draft.addOutput none else draft)
  | "--" :: rest => rest.foldlM Draft.addInput (if waiting then draft.addOutput none else draft)
  | argument :: rest =>
    match readOption? (if waiting then draft.addOutput none else draft) argument with
    | some read => do
      let (draft, waiting) ← read
      readArguments draft waiting rest
    | none =>
      if waiting then readArguments (draft.addOutput (some argument)) false rest
      else do
        let draft ← draft.addInput argument
        readArguments draft false rest

def parse (arguments : List String) : Request :=
  match readArguments .start false arguments with
  | .ok draft => draft.finish
  | .error request => request

/-- What records are shown under a number of options `-v`. -/
def threshold : Nat → Severity
  | 0 => .error
  | 1 => .warn
  | 2 => .info
  | _ => .debug

end HackAssembler.CommandLine
