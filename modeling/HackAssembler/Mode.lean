import HackAssembler.Diagnostic
import HackAssembler.Traced

/-!
# Modes

A defect that is found in strict mode is a fault, and ends the assembly. In lenient mode most
defects leave a warning, and the assembly goes on with a substitute.
-/

set_option autoImplicit false

namespace HackAssembler

/-- The assembly of a source, or a part of it. -/
abbrev Assembly := Traced Notice Fault

/-- How the assembly takes a defect. -/
inductive Mode where
  /-- Go on with a substitute, and warn. -/
  | lenient
  /-- Stop. -/
  | strict
  deriving Repr, DecidableEq

namespace Mode

/-- A check that is made in strict mode only. -/
def demand (mode : Mode) (holds : Bool) (line : Nat) (defect : Defect) : Assembly Unit :=
  if mode = strict ∧ holds = false then .fail ⟨line, defect⟩ else pure ()

/-- A check that a defect fails in strict mode and leaves a warning for in lenient mode. -/
def expect (mode : Mode) (holds : Bool) (line : Nat) (defect : Defect) (warning : Notice) :
    Assembly Unit :=
  if holds then pure ()
  else match mode with
    | strict => .fail ⟨line, defect⟩
    | lenient => .note warning

end Mode

end HackAssembler
