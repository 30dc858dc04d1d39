/-!
# Traced computations

A traced computation ends in a result or in an error, and either way leaves a trail of notices
behind. What was noticed before an error stays in the trail; after an error nothing more is
noticed.

`foldl` and `mapAccum` run a step over a list. Both keep the trail in reverse while they run, so
they take constant stack; `foldl_cons` and `mapAccum_cons` give them their meaning as plain
sequencing.
-/

set_option autoImplicit false

namespace HackAssembler

/-- A result of type `α` or an error of type `ε`, with the notices of type `ν` made on the way. -/
structure Traced (ν ε α : Type) where
  trail : List ν
  outcome : Except ε α

namespace Traced

variable {ν ε α β σ : Type}

@[ext] theorem ext {x y : Traced ν ε α} (trail : x.trail = y.trail)
    (outcome : x.outcome = y.outcome) : x = y := by
  cases x
  cases y
  simp_all

/-- Ends in an error and notices nothing. -/
def fail (error : ε) : Traced ν ε α := ⟨[], .error error⟩

def note (notice : ν) : Traced ν ε Unit := ⟨[notice], .ok ()⟩

/-- Runs `next` on the result of `first`, unless that ended in an error. -/
def andThen (first : Traced ν ε α) (next : α → Traced ν ε β) : Traced ν ε β :=
  match first.outcome with
  | .ok a => ⟨first.trail ++ (next a).trail, (next a).outcome⟩
  | .error e => ⟨first.trail, .error e⟩

instance : Monad (Traced ν ε) where
  pure a := ⟨[], .ok a⟩
  bind := andThen

@[simp] theorem outcome_fail (e : ε) : (fail e : Traced ν ε α).outcome = .error e := rfl

theorem bind_of_ok {first : Traced ν ε α} {a : α} (next : α → Traced ν ε β)
    (h : first.outcome = .ok a) :
    first >>= next = ⟨first.trail ++ (next a).trail, (next a).outcome⟩ := by
  show andThen first next = _
  simp [andThen, h]

theorem bind_of_error {first : Traced ν ε α} {e : ε} (next : α → Traced ν ε β)
    (h : first.outcome = .error e) : first >>= next = ⟨first.trail, .error e⟩ := by
  show andThen first next = _
  simp [andThen, h]

theorem bind_eq_ok_iff {first : Traced ν ε α} {next : α → Traced ν ε β} {b : β} :
    (first >>= next).outcome = .ok b ↔
      ∃ a, first.outcome = .ok a ∧ (next a).outcome = .ok b := by
  cases h : first.outcome with
  | ok a => simp [bind_of_ok next h]
  | error e => simp [bind_of_error next h]

theorem bind_eq_error_iff {first : Traced ν ε α} {next : α → Traced ν ε β} {e : ε} :
    (first >>= next).outcome = .error e ↔
      first.outcome = .error e ∨ ∃ a, first.outcome = .ok a ∧ (next a).outcome = .error e := by
  cases h : first.outcome with
  | ok a => simp [bind_of_ok next h]
  | error e' => simp [bind_of_error next h]

instance : LawfulMonad (Traced ν ε) := LawfulMonad.mk' _
  (fun x => by
    show andThen x (fun a => ⟨[], .ok a⟩) = x
    cases h : x.outcome <;> apply ext <;> simp [andThen, h])
  (fun a f => by
    show andThen ⟨[], .ok a⟩ f = f a
    simp [andThen])
  (fun x f g => by
    show andThen (andThen x f) g = andThen x (fun a => andThen (f a) g)
    cases h : x.outcome with
    | error e => simp [andThen, h]
    | ok a => cases h' : (f a).outcome <;> simp [andThen, h, h'])

/-- The same computation with its notices and its error put into other words. -/
def relabel {ν' ε' : Type} (notice : ν → ν') (error : ε → ε') (x : Traced ν ε α) :
    Traced ν' ε' α :=
  ⟨x.trail.map notice, x.outcome.mapError error⟩

/-- Runs a step over a list from a given state, with the trail so far in reverse. -/
def foldlFrom (step : σ → α → Traced ν ε σ) (back : List ν) (state : σ) :
    List α → Traced ν ε σ
  | [] => ⟨back.reverse, .ok state⟩
  | a :: rest =>
    let next := step state a
    match next.outcome with
    | .ok state => foldlFrom step (next.trail.reverseAux back) state rest
    | .error e => ⟨(next.trail.reverseAux back).reverse, .error e⟩

/-- Runs a step over a list: each step goes on from the state that the step before it left. -/
def foldl (step : σ → α → Traced ν ε σ) (state : σ) (list : List α) : Traced ν ε σ :=
  foldlFrom step [] state list

theorem foldlFrom_eq (step : σ → α → Traced ν ε σ) (back : List ν) (state : σ) (list : List α) :
    foldlFrom step back state list =
      ⟨back.reverse ++ (foldl step state list).trail, (foldl step state list).outcome⟩ := by
  induction list generalizing back state with
  | nil => simp [foldl, foldlFrom]
  | cons a rest ih =>
    cases h : (step state a).outcome with
    | error e => simp [foldl, foldlFrom, h, List.reverseAux_eq]
    | ok next =>
      simp only [foldl, foldlFrom, h]
      rw [ih, ih (List.reverseAux _ [])]
      simp [List.reverseAux_eq]

@[simp] theorem foldl_nil (step : σ → α → Traced ν ε σ) (state : σ) :
    foldl step state [] = pure state := rfl

@[simp] theorem foldl_cons (step : σ → α → Traced ν ε σ) (state : σ) (a : α) (rest : List α) :
    foldl step state (a :: rest) = step state a >>= fun next => foldl step next rest := by
  cases h : (step state a).outcome with
  | error e => simp [bind_of_error _ h, foldl, foldlFrom, h, List.reverseAux_eq]
  | ok next =>
    rw [bind_of_ok _ h]
    simp only [foldl, foldlFrom, h]
    rw [foldlFrom_eq]
    simp [foldl, List.reverseAux_eq]

/-- One step of `mapAccum`, which keeps the results so far in reverse. -/
def collect (step : σ → α → Traced ν ε (σ × β)) (state : σ × List β) (a : α) :
    Traced ν ε (σ × List β) := do
  let (next, b) ← step state.1 a
  return (next, b :: state.2)

/-- Runs a step over a list and keeps the result of every step beside the last state. -/
def mapAccum (step : σ → α → Traced ν ε (σ × β)) (state : σ) (list : List α) :
    Traced ν ε (σ × List β) := do
  let (last, back) ← foldl (collect step) (state, []) list
  return (last, back.reverse)

theorem foldl_collect (step : σ → α → Traced ν ε (σ × β)) (state : σ) (back : List β)
    (list : List α) :
    (foldl (collect step) (state, back) list >>= fun r => pure (r.1, r.2.reverse)) =
      mapAccum step state list >>= fun r => pure (r.1, back.reverse ++ r.2) := by
  induction list generalizing state back with
  | nil => simp [mapAccum]
  | cons a rest ih =>
    have unfolded : mapAccum step state (a :: rest) =
        step state a >>= fun r =>
          mapAccum step r.1 rest >>= fun s => pure (s.1, [r.2].reverse ++ s.2) := by
      show (foldl (collect step) (state, []) (a :: rest) >>= fun r => pure (r.1, r.2.reverse)) = _
      rw [foldl_cons, collect]
      simp only [bind_assoc, pure_bind]
      exact bind_congr fun r => ih r.1 [r.2]
    rw [unfolded, foldl_cons, collect]
    simp only [bind_assoc, pure_bind]
    refine bind_congr fun r => ?_
    rw [ih]
    simp

@[simp] theorem mapAccum_nil (step : σ → α → Traced ν ε (σ × β)) (state : σ) :
    mapAccum step state [] = pure (state, []) := rfl

@[simp] theorem mapAccum_cons (step : σ → α → Traced ν ε (σ × β)) (state : σ) (a : α)
    (rest : List α) :
    mapAccum step state (a :: rest) = do
      let (next, b) ← step state a
      let (last, bs) ← mapAccum step next rest
      return (last, b :: bs) := by
  show (foldl (collect step) (state, []) (a :: rest) >>= fun r => pure (r.1, r.2.reverse)) = _
  rw [foldl_cons, collect]
  simp only [bind_assoc, pure_bind]
  refine bind_congr fun r => ?_
  rw [foldl_collect]
  simp

end Traced

end HackAssembler
