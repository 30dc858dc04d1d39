import HackAssembler.Traced
import Mathlib.Data.List.Induction

/-!
# Runs and their history

A walk over a list is described by what each step does after the members before it. `withPast`
pairs every member of a list with those members. A computation `Ends` as described if it ends with
the error that is called for, or else leaves the given notices and a result of the given kind; the
rules below lift this from one step to a run. `foldl_ends` is for a walk that only carries a state,
`mapAccum_ends` for one that also gives a result for every member. A run ends with the first error
that the history of a member calls for.

The first rule is proved by induction on the list from its end, so that the induction hypothesis
speaks of the past of the last member; the second one follows from it.
-/

set_option autoImplicit false

namespace HackAssembler

/-- Every member of a list, behind the members before it. -/
def withPast {α : Type} (list : List α) : List (List α × α) :=
  list.zipIdx.map fun (member, place) => (list.take place, member)

section WithPast

variable {α : Type}

@[simp] theorem withPast_nil : withPast ([] : List α) = [] := rfl

@[simp] theorem withPast_concat (list : List α) (last : α) :
    withPast (list ++ [last]) = withPast list ++ [(list, last)] := by
  have same : list.zipIdx.map (fun (member, place) => ((list ++ [last]).take place, member)) =
      list.zipIdx.map (fun (member, place) => (list.take place, member)) := by
    apply List.map_congr_left
    rintro ⟨member, place⟩ found
    have inside := List.snd_lt_of_mem_zipIdx found
    simp [List.take_append_of_le_length (Nat.le_of_lt (by simpa using inside))]
  simp [withPast, List.zipIdx_append, same]

theorem withPast_append (list more : List α) :
    withPast (list ++ more) =
      withPast list ++ (withPast more).map fun p => (list ++ p.1, p.2) := by
  induction more using List.reverseRecOn with
  | nil => simp
  | append_singleton more last ih =>
    rw [← List.append_assoc, withPast_concat, ih, withPast_concat, List.map_append,
      List.map_singleton, List.append_assoc]

theorem mem_withPast {list past : List α} {member : α} :
    (past, member) ∈ withPast list ↔ ∃ rest, list = past ++ member :: rest := by
  induction list using List.reverseRecOn with
  | nil => simp
  | append_singleton list last ih =>
    rw [withPast_concat, List.mem_append, ih]
    constructor
    · rintro (⟨rest, rfl⟩ | found)
      · exact ⟨rest ++ [last], by simp⟩
      · obtain ⟨rfl, rfl⟩ : past = list ∧ member = last := by simpa using found
        exact ⟨[], rfl⟩
    · rintro ⟨rest, split⟩
      rcases List.eq_nil_or_concat rest with rfl | ⟨before, x, rfl⟩
      · obtain ⟨rfl, rfl⟩ : list = past ∧ last = member := by
          simpa using List.append_inj' split rfl
        exact Or.inr (by simp)
      · have split : list ++ [last] = (past ++ member :: before) ++ [x] := by simpa using split
        exact Or.inl ⟨before, (List.append_inj' split rfl).1⟩

/-- A place of a list with one more member in the middle is a place in front of it, the place of the
new member, or a place behind it. -/
theorem mem_withPast_append_cons {front back past : List α} {new member : α} :
    (past, member) ∈ withPast (front ++ new :: back) ↔
      (past, member) ∈ withPast front ∨ (past = front ∧ member = new) ∨
        ∃ between, (between, member) ∈ withPast back ∧ past = front ++ new :: between := by
  rw [List.append_cons, withPast_append, withPast_concat, List.mem_append, List.mem_append,
    List.mem_singleton, Prod.mk.injEq, List.mem_map, or_assoc]
  simp [and_comm, eq_comm]

theorem mem_of_mem_withPast {list past : List α} {member : α}
    (found : (past, member) ∈ withPast list) : member ∈ list := by
  obtain ⟨rest, rfl⟩ := mem_withPast.1 found
  simp

theorem withPast_map {β : Type} (f : α → β) (list : List α) :
    withPast (list.map f) = (withPast list).map fun p => (p.1.map f, f p.2) := by
  induction list using List.reverseRecOn with
  | nil => rfl
  | append_singleton list last ih =>
    rw [List.map_append, List.map_singleton, withPast_concat, withPast_concat, ih,
      List.map_append, List.map_singleton]

theorem map_snd_withPast (list : List α) : (withPast list).map Prod.snd = list := by
  induction list using List.reverseRecOn with
  | nil => rfl
  | append_singleton list last ih =>
    rw [withPast_concat, List.map_append, ih, List.map_singleton]

theorem exists_past_of_mem {list : List α} {member : α} (found : member ∈ list) :
    ∃ past, (past, member) ∈ withPast list := by
  rw [← map_snd_withPast list, List.mem_map] at found
  obtain ⟨⟨past, _⟩, found, rfl⟩ := found
  exact ⟨past, found⟩

theorem mem_withPast_append {list past : List α} {member : α}
    (found : (past, member) ∈ withPast list) (rest : List α) :
    (past, member) ∈ withPast (list ++ rest) := by
  obtain ⟨more, rfl⟩ := mem_withPast.1 found
  exact mem_withPast.2 ⟨more ++ rest, by simp⟩

theorem mem_withPast_of_mem_past {list past earlier : List α} {member before : α}
    (found : (past, member) ∈ withPast list) (first : (earlier, before) ∈ withPast past) :
    (earlier, before) ∈ withPast list := by
  obtain ⟨rest, rfl⟩ := mem_withPast.1 found
  exact mem_withPast_append first _

/-- Of two places in a list one is before the other one, unless they are the same. -/
theorem withPast_total {list past past' : List α} {member member' : α}
    (found : (past, member) ∈ withPast list) (found' : (past', member') ∈ withPast list) :
    (past = past' ∧ member = member') ∨ (past, member) ∈ withPast past' ∨
      (past', member') ∈ withPast past := by
  induction list using List.reverseRecOn with
  | nil => contradiction
  | append_singleton list last ih =>
    rw [withPast_concat, List.mem_append, List.mem_singleton] at found found'
    rcases found with earlier | here
    · rcases found' with earlier' | here'
      · exact ih earlier earlier'
      · obtain ⟨rfl, rfl⟩ := Prod.mk.inj here'
        exact Or.inr (Or.inl earlier)
    · obtain ⟨rfl, rfl⟩ := Prod.mk.inj here
      rcases found' with earlier' | here'
      · exact Or.inr (Or.inr earlier')
      · obtain ⟨rfl, rfl⟩ := Prod.mk.inj here'
        exact Or.inl ⟨rfl, rfl⟩

/-- What holds at the start and is kept up by every member after its past holds at the end. -/
theorem withPast_induction {list : List α} (Holds : List α → Prop) (start : Holds [])
    (one : ∀ past a, (past, a) ∈ withPast list → Holds past → Holds (past ++ [a])) :
    Holds list := by
  induction list using List.reverseRecOn with
  | nil => exact start
  | append_singleton list last ih =>
    have before : Holds list := by
      apply ih
      intro past a found
      exact one past a (mem_withPast_append found [last])
    exact one list last (by simp) before

/-- The first answer in a list comes from a member whose past gives none. -/
theorem exists_first_of_findSome? {β : Type} {list : List α} {answer? : List α × α → Option β}
    {answer : β} (found : (withPast list).findSome? answer? = some answer) :
    ∃ past a, (past, a) ∈ withPast list ∧ answer? (past, a) = some answer ∧
      ∀ p ∈ withPast past, answer? p = none := by
  induction list using List.reverseRecOn with
  | nil => contradiction
  | append_singleton list last ih =>
    rw [withPast_concat, List.findSome?_append, Option.or_eq_some_iff] at found
    rcases found with earlier | ⟨silent, here⟩
    · obtain ⟨past, a, member, stated, before⟩ := ih earlier
      exact ⟨past, a, mem_withPast_append member [last], stated, before⟩
    · refine ⟨list, last, mem_withPast.2 ⟨[], rfl⟩, ?_, List.findSome?_eq_none_iff.1 silent⟩
      simpa using here

end WithPast

namespace Traced

variable {ν ε α β σ : Type}

theorem foldl_concat (step : σ → α → Traced ν ε σ) (state : σ) (list : List α) (last : α) :
    foldl step state (list ++ [last]) = foldl step state list >>= fun next => step next last := by
  induction list generalizing state with
  | nil => simp
  | cons a rest ih => simp [ih]

theorem mapAccum_append (step : σ → α → Traced ν ε (σ × β)) (state : σ) (list more : List α) :
    mapAccum step state (list ++ more) = do
      let (next, bs) ← mapAccum step state list
      let (last, cs) ← mapAccum step next more
      return (last, bs ++ cs) := by
  induction list generalizing state with
  | nil => simp
  | cons a rest ih => simp [ih]

/-- The computation ends with the error, if there is one, and otherwise leaves the notices and a
result that `Holds` is true of. -/
def Ends (run : Traced ν ε α) (error? : Option ε) (notices : List ν) (Holds : α → Prop) : Prop :=
  match error? with
  | some error => run.outcome = .error error
  | none => ∃ result, run = ⟨notices, .ok result⟩ ∧ Holds result

@[simp] theorem ends_some {run : Traced ν ε α} {error : ε} {notices : List ν} {Holds : α → Prop} :
    run.Ends (some error) notices Holds ↔ run.outcome = .error error := Iff.rfl

theorem Ends.of_ok {run : Traced ν ε α} {error? : Option ε} {notices : List ν} {Holds : α → Prop}
    {a : α} (ends : run.Ends error? notices Holds) (ok : run.outcome = .ok a) :
    error? = none ∧ run.trail = notices ∧ Holds a := by
  cases error? with
  | some error =>
    rw [ends_some, ok] at ends
    contradiction
  | none =>
    obtain ⟨result, rfl, holds⟩ := ends
    obtain rfl := Except.ok.inj ok
    exact ⟨rfl, rfl, holds⟩

theorem Ends.of_error {run : Traced ν ε α} {error? : Option ε} {notices : List ν}
    {Holds : α → Prop} {error : ε} (ends : run.Ends error? notices Holds)
    (failed : run.outcome = .error error) : error? = some error := by
  cases error? with
  | some stated =>
    rw [ends_some, failed] at ends
    rw [Except.error.inj ends]
  | none =>
    obtain ⟨result, rfl, -⟩ := ends
    contradiction

theorem ends_pure {a : α} {Holds : α → Prop} (holds : Holds a) :
    (pure a : Traced ν ε α).Ends none [] Holds := ⟨a, rfl, holds⟩

theorem ends_note (notice : ν) :
    (note notice : Traced ν ε Unit).Ends none [notice] fun _ => True := ⟨(), rfl, trivial⟩

theorem ends_bind {first : Traced ν ε α} {next : α → Traced ν ε β} {error? later? : Option ε}
    {notices more : List ν} {Holds : α → Prop} {Then : β → Prop}
    (ends : first.Ends error? notices Holds)
    (goes_on : error? = none → ∀ a, Holds a → (next a).Ends later? more Then) :
    (first >>= next).Ends (error?.or later?) (notices ++ more) Then := by
  cases error? with
  | some error => exact bind_eq_error_iff.2 (Or.inl ends)
  | none =>
    obtain ⟨a, rfl, holds⟩ := ends
    have ends := goes_on rfl a holds
    rw [bind_of_ok next rfl]
    cases later? with
    | some error => exact ends
    | none =>
      obtain ⟨b, runs, holds⟩ := ends
      exact ⟨b, by rw [runs], holds⟩

theorem Ends.of_eq {run : Traced ν ε α} {error? stated? : Option ε} {notices stated : List ν}
    {Holds : α → Prop} (ends : run.Ends error? notices Holds) (error : error? = stated?)
    (said : notices = stated) : run.Ends stated? stated Holds := by
  rwa [← error, ← said]

theorem Ends.map {first : Traced ν ε α} {f : α → β} {error? : Option ε} {notices : List ν}
    {Holds : α → Prop} {Then : β → Prop} (ends : first.Ends error? notices Holds)
    (keeps : error? = none → ∀ a, Holds a → Then (f a)) :
    (f <$> first).Ends error? notices Then := by
  have mapped : (first >>= fun a => pure (f a)).Ends (error?.or none) (notices ++ []) Then :=
    ends_bind ends fun fine a holds => ⟨f a, rfl, keeps fine a holds⟩
  simpa using mapped

theorem Ends.imp {run : Traced ν ε α} {error? : Option ε} {notices : List ν}
    {Holds Then : α → Prop} (ends : run.Ends error? notices Holds)
    (keeps : error? = none → ∀ a, Holds a → Then a) : run.Ends error? notices Then := by
  have mapped : (id <$> run).Ends error? notices Then := ends.map keeps
  rwa [id_map] at mapped

/-- The rule for walks: what one step does after its past, a run does member by member. -/
theorem foldl_ends {step : σ → α → Traced ν ε σ} {state : σ} {list : List α}
    {error? : List α → α → Option ε} {notices : List α → α → List ν}
    (Holds : List α → σ → Prop) (start : Holds [] state)
    (one : ∀ past a state, (past, a) ∈ withPast list → Holds past state →
      (step state a).Ends (error? past a) (notices past a) (Holds (past ++ [a]))) :
    (foldl step state list).Ends ((withPast list).findSome? fun p => error? p.1 p.2)
      ((withPast list).flatMap fun p => notices p.1 p.2) (Holds list) := by
  induction list using List.reverseRecOn with
  | nil => exact ⟨state, rfl, start⟩
  | append_singleton list last ih =>
    have before := ih fun past a state found => one past a state (by simp [found])
    -- The run over `list` comes first, and so do its error and its notices.
    rw [foldl_concat, withPast_concat, List.findSome?_append, List.flatMap_append]
    refine ends_bind before fun _ next holds => ?_
    simpa using one list last next (by simp) holds

/-- The rule for walks with results: the result for a member is the one that its past calls for. -/
theorem mapAccum_ends {step : σ → α → Traced ν ε (σ × β)} {state : σ} {list : List α}
    {error? : List α → α → Option ε} {notices : List α → α → List ν} {result : List α → α → β}
    (Holds : List α → σ → Prop) (start : Holds [] state)
    (one : ∀ past a state, (past, a) ∈ withPast list → Holds past state →
      (step state a).Ends (error? past a) (notices past a)
        fun r => Holds (past ++ [a]) r.1 ∧ r.2 = result past a) :
    (mapAccum step state list).Ends ((withPast list).findSome? fun p => error? p.1 p.2)
      ((withPast list).flatMap fun p => notices p.1 p.2)
      fun r => Holds list r.1 ∧ r.2 = (withPast list).map fun p => result p.1 p.2 := by
  -- The results are collected in reverse, so they are part of the state of a plain walk.
  have collected : (foldl (collect step) (state, []) list).Ends
      ((withPast list).findSome? fun p => error? p.1 p.2)
      ((withPast list).flatMap fun p => notices p.1 p.2)
      fun r => Holds list r.1 ∧ r.2.reverse = (withPast list).map fun p => result p.1 p.2 := by
    refine foldl_ends
      (fun past (r : σ × List β) =>
        Holds past r.1 ∧ r.2.reverse = (withPast past).map fun p => result p.1 p.2)
      ⟨start, rfl⟩ ?_
    rintro past a ⟨state, back⟩ found ⟨holds, results⟩
    have ended := one past a state found holds
    rw [collect, bind_pure_comp]
    refine ended.map fun _ r holds => ⟨holds.1, ?_⟩
    simp [results, holds.2]
  rw [mapAccum, bind_pure_comp]
  exact collected.map fun _ r holds => holds

end Traced

end HackAssembler
