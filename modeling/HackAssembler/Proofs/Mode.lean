import HackAssembler.Mode
import HackAssembler.Proofs.History

/-!
# Checks in the two modes

How an assembly goes on after a check. In strict mode a defect ends it. In lenient mode it goes on,
after a warning where the check has one; so a lenient assembly is never stopped.
-/

set_option autoImplicit false

namespace HackAssembler.Mode

/-- The fault that stops an assembly: in lenient mode none does. -/
def stops (mode : Mode) (fault? : Option Fault) : Option Fault :=
  match mode with
  | lenient => none
  | strict => fault?

@[simp] theorem stops_lenient (fault? : Option Fault) : lenient.stops fault? = none := rfl

@[simp] theorem stops_strict (fault? : Option Fault) : strict.stops fault? = fault? := rfl

@[simp] theorem stops_none (mode : Mode) : mode.stops none = none := by cases mode <;> rfl

theorem stops_or (mode : Mode) (first? later? : Option Fault) :
    mode.stops (first?.or later?) = (mode.stops first?).or (mode.stops later?) := by
  cases mode <;> rfl

theorem stops_findSome? {α : Type} (mode : Mode) (fault? : α → Option Fault) (list : List α) :
    mode.stops (list.findSome? fault?) = list.findSome? fun a => mode.stops (fault? a) := by
  cases mode with
  | lenient => exact (List.findSome?_eq_none_iff.2 fun _ _ => rfl).symm
  | strict => rfl

theorem demand_ends (mode : Mode) (holds : Bool) (line : Nat) (defect : Defect) :
    (mode.demand holds line defect).Ends
      (mode.stops (if holds then none else some ⟨line, defect⟩)) [] fun _ => True := by
  cases mode <;> cases holds
  case strict.false => rfl
  all_goals exact ⟨(), rfl, trivial⟩

theorem expect_ends (mode : Mode) (holds : Bool) (line : Nat) (defect : Defect)
    (warning : Notice) :
    (mode.expect holds line defect warning).Ends
      (mode.stops (if holds then none else some ⟨line, defect⟩))
      (if holds then [] else [warning]) fun _ => True := by
  cases mode <;> cases holds
  case strict.false => rfl
  all_goals exact ⟨(), rfl, trivial⟩

end HackAssembler.Mode
