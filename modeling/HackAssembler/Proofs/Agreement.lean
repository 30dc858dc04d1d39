import HackAssembler.Traced
import Mathlib.Data.List.Forall2

/-!
# Runs side by side

Two computations agree if both end in results that are related, or both in errors that are alike,
and if the trail of the second one is that of the first one, put into other words. Agreement is
lifted from one step to a run: if related states step to related states, then the walks from
related states over a list and over its image agree (`foldl_agrees`), and so do the results that
the steps give for the members (`mapAccum_agrees`).
-/

set_option autoImplicit false

namespace HackAssembler.Traced

variable {ν ν' ε ε' α α' β β' σ σ' : Type}

/-- Both outcomes are related results, or both are errors that are alike. -/
inductive OutcomesAgree (Alike : ε → ε' → Prop) (Related : α → α' → Prop) :
    Except ε α → Except ε' α' → Prop where
  | ok {a : α} {a' : α'} (related : Related a a') : OutcomesAgree Alike Related (.ok a) (.ok a')
  | error {e : ε} {e' : ε'} (alike : Alike e e') :
    OutcomesAgree Alike Related (.error e) (.error e')

theorem OutcomesAgree.imp {Alike : ε → ε' → Prop} {Related Then : α → α' → Prop}
    {outcome : Except ε α} {outcome' : Except ε' α'}
    (agree : OutcomesAgree Alike Related outcome outcome')
    (keeps : ∀ a a', Related a a' → Then a a') : OutcomesAgree Alike Then outcome outcome' := by
  cases agree with
  | ok related => exact .ok (keeps _ _ related)
  | error alike => exact .error alike

/-- The second computation does what the first one does, with its notices put into other words. -/
structure Agrees (words : ν → ν') (Alike : ε → ε' → Prop) (Related : α → α' → Prop)
    (run : Traced ν ε α) (other : Traced ν' ε' α') : Prop where
  trail : other.trail = run.trail.map words
  outcome : OutcomesAgree Alike Related run.outcome other.outcome

variable {words : ν → ν'} {Alike : ε → ε' → Prop} {Related : α → α' → Prop}
  {Then : β → β' → Prop}

theorem agrees_pure {a : α} {a' : α'} (related : Related a a') :
    (pure a : Traced ν ε α).Agrees words Alike Related (pure a' : Traced ν' ε' α') :=
  ⟨rfl, .ok related⟩

theorem agrees_fail {e : ε} {e' : ε'} (alike : Alike e e') :
    (fail e : Traced ν ε α).Agrees words Alike Related (fail e' : Traced ν' ε' α') :=
  ⟨rfl, .error alike⟩

theorem agrees_note (notice : ν) :
    (note notice : Traced ν ε Unit).Agrees words Alike (fun _ _ => True)
      (note (words notice) : Traced ν' ε' Unit) :=
  ⟨rfl, .ok trivial⟩

theorem agrees_bind {first : Traced ν ε α} {other : Traced ν' ε' α'} {next : α → Traced ν ε β}
    {next' : α' → Traced ν' ε' β'} (agrees : first.Agrees words Alike Related other)
    (goes_on : ∀ a a', Related a a' → (next a).Agrees words Alike Then (next' a')) :
    (first >>= next).Agrees words Alike Then (other >>= next') := by
  obtain ⟨trail, outcome⟩ := agrees
  generalize ended : first.outcome = result at outcome
  generalize ended' : other.outcome = result' at outcome
  cases outcome with
  | error alike =>
    rw [bind_of_error next ended, bind_of_error next' ended']
    exact ⟨trail, .error alike⟩
  | ok related =>
    rw [bind_of_ok next ended, bind_of_ok next' ended']
    obtain ⟨later, outcome⟩ := goes_on _ _ related
    refine ⟨?_, outcome⟩
    rw [trail, later, List.map_append]

/-- The rule for walks: what holds of two steps from related states holds of two runs. -/
theorem foldl_agrees {step : σ → α → Traced ν ε σ} {step' : σ' → α' → Traced ν' ε' σ'}
    {image : α → α'} {States : σ → σ' → Prop}
    (one : ∀ state state' a, States state state' →
      (step state a).Agrees words Alike States (step' state' (image a)))
    (list : List α) {state : σ} {state' : σ'} (start : States state state') :
    (foldl step state list).Agrees words Alike States (foldl step' state' (list.map image)) := by
  induction list generalizing state state' with
  | nil => exact agrees_pure start
  | cons a rest ih =>
    rw [List.map_cons, foldl_cons, foldl_cons]
    apply agrees_bind (one state state' a start)
    intro next next' related
    exact ih related

/-- The rule for walks with results: the results of two runs are related one by one. -/
theorem mapAccum_agrees {step : σ → α → Traced ν ε (σ × β)}
    {step' : σ' → α' → Traced ν' ε' (σ' × β')} {image : α → α'} {States : σ → σ' → Prop}
    (one : ∀ state state' a, States state state' →
      (step state a).Agrees words Alike (fun r r' => States r.1 r'.1 ∧ Then r.2 r'.2)
        (step' state' (image a)))
    (list : List α) {state : σ} {state' : σ'} (start : States state state') :
    (mapAccum step state list).Agrees words Alike
      (fun r r' => States r.1 r'.1 ∧ List.Forall₂ Then r.2 r'.2)
      (mapAccum step' state' (list.map image)) := by
  induction list generalizing state state' with
  | nil => exact agrees_pure ⟨start, .nil⟩
  | cons a rest ih =>
    rw [List.map_cons, mapAccum_cons, mapAccum_cons]
    apply agrees_bind (one state state' a start)
    intro r r' related
    apply agrees_bind (ih related.1)
    intro last last' others
    exact agrees_pure ⟨others.1, .cons related.2 others.2⟩

end HackAssembler.Traced
