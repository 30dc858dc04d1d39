/-!
# Log records

What the program says on the way. A record tells which part of the program speaks and how severe
the matter is; a threshold lets through the records that are at least as severe.
-/

set_option autoImplicit false

namespace HackAssembler

/-- How much a record matters, the gravest first. -/
inductive Severity where
  | error
  | warn
  | info
  | debug
  deriving Repr, DecidableEq

namespace Severity

/-- The place of a severity, counted from the gravest. -/
def rank : Severity → Nat
  | error => 0
  | warn => 1
  | info => 2
  | debug => 3

def name : Severity → String
  | error => "ERROR"
  | warn => "WARN"
  | info => "INFO"
  | debug => "DEBUG"

/-- Whether a threshold lets a record of some severity through. -/
def admits (threshold severity : Severity) : Bool := decide (severity.rank ≤ threshold.rank)

end Severity

/-- The part of the program that a record comes from. -/
inductive Origin where
  | assembly
  | build
  | program
  deriving Repr, DecidableEq

def Origin.name : Origin → String
  | assembly => "hackasm::assembler::resolver"
  | build => "hackasm::driver"
  | program => "hackasm"

structure Record where
  origin : Origin
  severity : Severity
  text : String
  deriving Repr, DecidableEq

namespace Record

/-- How a record is written, without a time. -/
def render (record : Record) : String :=
  "[" ++ record.origin.name ++ "][" ++ record.severity.name ++ "] " ++ record.text

/-- The records that a threshold lets through, in order. -/
def admitted (threshold : Severity) (records : List Record) : List Record :=
  records.filter fun record => threshold.admits record.severity

end Record

end HackAssembler
