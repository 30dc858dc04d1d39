import HackAssembler.SymbolTable
import Mathlib.Data.Finset.Card
import Mathlib.Data.Finset.Dedup
import Mathlib.Data.List.Induction

/-!
# The history of a symbol table

A table that starts with the reserved names is asked to bind names, to move them and to find them,
in any order. What it finds under a name is told by the requests alone (`heldAfter?`): the last move
of the name decides, and if there is none, its reserved address, and if it has none, its first
binding. The table grows by one for every name that it is given for the first time, and no name is
ever taken away.

All this rests on what one request does to one name (`lookup_serve`), which is carried through a
history by induction from its end.
-/

set_option autoImplicit false

namespace HackAssembler.SymbolTable

/-- What a table is asked for. -/
inductive Request where
  | bind (name : String) (address : Word)
  | rebind (name : String) (address : Word)
  | lookup (name : String)
  deriving Repr, DecidableEq

inductive Answer where
  /-- The name holds the address that was asked for. -/
  | bound
  /-- The name holds another address, and keeps it. -/
  | refused (held : Word)
  /-- The name holds the address that was asked for, and held this one before. -/
  | moved (previous : Option Word)
  | found (address : Option Word)
  deriving Repr, DecidableEq

namespace Request

/-- The name that a request is about. -/
def name : Request → String
  | bind name _ | rebind name _ | lookup name => name

/-- The address that a request binds a name to, if the name is free. -/
def binds? (name : String) : Request → Option Word
  | bind bound address => if bound = name then some address else none
  | rebind .. | lookup _ => none

/-- The address that a request moves a name to. -/
def moves? (name : String) : Request → Option Word
  | rebind moved address => if moved = name then some address else none
  | bind .. | lookup _ => none

/-- The name that is sure to have an address after a request. -/
def gives? : Request → Option String
  | bind name _ | rebind name _ => some name
  | lookup _ => none

end Request

/-- The answer to a request, and the table from then on. -/
def serve (table : SymbolTable) : Request → Answer × SymbolTable
  | .bind name address =>
    match table.bind name address with
    | .ok next => (.bound, next)
    | .error held => (.refused held, table)
  | .rebind name address => (.moved (table.rebind name address).1, (table.rebind name address).2)
  | .lookup name => (.found (table.lookup name), table)

/-- The table after some requests. -/
def after (requests : List Request) : SymbolTable :=
  requests.foldl (fun table request => (table.serve request).2) reserved

/-- What a name stands for after some requests: what it was last moved to, else its reserved
address, else what it was first bound to. -/
def heldAfter? (requests : List Request) (name : String) : Option Word :=
  (requests.reverse.findSome? (Request.moves? name)).or
    ((reservedNames.lookup name).or (requests.findSome? (Request.binds? name)))

/-- The names that requests give addresses to and that are not reserved. -/
def givenNames (requests : List Request) : Finset String :=
  ((requests.filterMap Request.gives?).filter fun name =>
    (reservedNames.lookup name).isNone).toFinset

variable {requests : List Request} {name : String}

/-! ## One request -/

/-- A table takes in the address of a name that has none, and is left as it is otherwise. -/
theorem serve_bind_snd (table : SymbolTable) (name : String) (address : Word) :
    (table.serve (.bind name address)).2 =
      if (table.lookup name).isSome then table else table.insert name address := by
  rw [serve, bind]
  cases table.lookup name with
  | none => rfl
  | some held => by_cases same : held = address <;> simp [same]

/-- A request moves a name, leaves it as it is, or binds it if it is free. -/
theorem lookup_serve (table : SymbolTable) (request : Request) (name : String) :
    (table.serve request).2.lookup name =
      (request.moves? name).or ((table.lookup name).or (request.binds? name)) := by
  cases request with
  | lookup other => simp [serve, Request.moves?, Request.binds?]
  | rebind other address =>
    rw [serve, rebind, lookup_insert, Request.moves?]
    split <;> simp [Request.binds?]
  | bind other address =>
    rw [serve_bind_snd, Request.moves?, Request.binds?, Option.none_or]
    cases held : table.lookup other with
    | none =>
      by_cases same : other = name
      · subst same
        simp [lookup_insert, held]
      · simp [lookup_insert, same]
    | some previous =>
      by_cases same : other = name
      · subst same
        simp [held]
      · simp [same]

theorem lookup_serve_of_ne (table : SymbolTable) {request : Request} (other : request.name ≠ name) :
    (table.serve request).2.lookup name = table.lookup name := by
  have unmoved : request.moves? name = none := by
    cases request <;> simp_all [Request.moves?, Request.name]
  have unbound : request.binds? name = none := by
    cases request <;> simp_all [Request.binds?, Request.name]
  rw [lookup_serve, unmoved, unbound, Option.none_or, Option.or_none]

/-- A request gives one name an address, and takes none away. -/
theorem isSome_lookup_serve (table : SymbolTable) (request : Request) (name : String) :
    ((table.serve request).2.lookup name).isSome ↔
      (table.lookup name).isSome ∨ request.gives? = some name := by
  have gives : (request.moves? name).isSome ∨ (request.binds? name).isSome ↔
      request.gives? = some name := by
    cases request <;> simp [Request.moves?, Request.binds?, Request.gives?, apply_ite]
  rw [lookup_serve, Option.isSome_or, Option.isSome_or, Bool.or_eq_true, Bool.or_eq_true, ← gives]
  exact or_left_comm

/-- A binding is refused exactly for a name that holds another address, and then the table is left
as it is. -/
theorem serve_bind_eq_refused_iff {table next : SymbolTable} {address held : Word} :
    table.serve (.bind name address) = (.refused held, next) ↔
      table.lookup name = some held ∧ held ≠ address ∧ next = table := by
  rw [← and_assoc, ← bind_eq_error_iff, serve]
  cases bound : table.bind name address with
  | ok after => simp
  | error previous => simp [eq_comm]

theorem lookup_serve_bind (table : SymbolTable) {held : Word}
    (holds : table.lookup name = some held) (address : Word) :
    (table.serve (.bind name address)).2.lookup name = some held := by
  rw [lookup_serve, holds]
  rfl

/-- The table grows when a request gives an address to a name that has none. -/
theorem size_serve (table : SymbolTable) (request : Request) :
    (table.serve request).2.size =
      match request.gives? with
      | some name => if (table.lookup name).isSome then table.size else table.size + 1
      | none => table.size := by
  cases request with
  | lookup name => rfl
  | rebind name address => exact size_insert table name address
  | bind name address =>
    rw [serve_bind_snd, Request.gives?]
    cases held : table.lookup name with
    | none => simp [size_insert, held]
    | some previous => simp [held]

/-! ## A history of requests -/

theorem after_concat (requests : List Request) (request : Request) :
    after (requests ++ [request]) = ((after requests).serve request).2 := by
  rw [after, List.foldl_append]
  rfl

theorem lookup_after (requests : List Request) (name : String) :
    (after requests).lookup name = heldAfter? requests name := by
  induction requests using List.reverseRecOn with
  | nil => simp [after, heldAfter?, lookup_reserved]
  | append_singleton requests request ih =>
    rw [after_concat, lookup_serve, ih, heldAfter?, heldAfter?, List.reverse_append,
      List.findSome?_append, List.findSome?_append]
    simp [Option.or_assoc]

/-- The names in the table are the reserved ones and those that were given. -/
theorem isSome_lookup_after (requests : List Request) (name : String) :
    ((after requests).lookup name).isSome ↔
      (reservedNames.lookup name).isSome ∨ name ∈ requests.filterMap Request.gives? := by
  induction requests using List.reverseRecOn with
  | nil => simp [after, lookup_reserved]
  | append_singleton requests request ih =>
    rw [after_concat, isSome_lookup_serve, ih, List.filterMap_append, List.mem_append, or_assoc]
    simp

theorem givenNames_concat (requests : List Request) (request : Request) :
    givenNames (requests ++ [request]) =
      match request.gives? with
      | some name =>
        if (reservedNames.lookup name).isSome then givenNames requests
        else Insert.insert name (givenNames requests)
      | none => givenNames requests := by
  ext other
  simp only [givenNames, List.filterMap_append, List.filter_append, List.toFinset_append]
  cases given : request.gives? with
  | none => simp [given]
  | some name =>
    cases reserved : reservedNames.lookup name <;> simp [given, reserved]

theorem size_after (requests : List Request) :
    (after requests).size = 23 + (givenNames requests).card := by
  induction requests using List.reverseRecOn with
  | nil => exact size_reserved
  | append_singleton requests request ih =>
    rw [after_concat, size_serve, givenNames_concat]
    cases request.gives? with
    | none => exact ih
    | some name =>
      have known := isSome_lookup_after requests name
      dsimp only
      cases reserved : reservedNames.lookup name with
      | some address => simpa [known, reserved] using ih
      | none =>
        -- A name that is not reserved is in the table if it was given before.
        have given : ((after requests).lookup name).isSome ↔ name ∈ givenNames requests := by
          rw [known, givenNames]
          simp [reserved]
        simp only [Option.isSome_none, Bool.false_eq_true, if_false, Finset.card_insert_eq_ite,
          given]
        split
        · exact ih
        · rw [ih, Nat.add_assoc]

/-- A name that is in the table stays there. -/
theorem isSome_lookup_after_append (known : ((after requests).lookup name).isSome)
    (more : List Request) : ((after (requests ++ more)).lookup name).isSome := by
  rw [isSome_lookup_after, List.filterMap_append, List.mem_append, ← or_assoc]
  exact Or.inl ((isSome_lookup_after requests name).1 known)

/-- The table answers as the requests before call for. -/
structure Remembers (requests : List Request) (table : SymbolTable) : Prop where
  lookup : ∀ name, table.lookup name = heldAfter? requests name
  /-- Looking for a name changes nothing. -/
  found : ∀ name, table.serve (.lookup name) = (.found (heldAfter? requests name), table)
  contains : ∀ name, table.contains name = (table.lookup name).isSome
  /-- A binding is refused exactly for a name with another address, and then changes nothing. -/
  refused : ∀ name address held next,
    table.serve (.bind name address) = (.refused held, next) ↔
      table.lookup name = some held ∧ held ≠ address ∧ next = table
  /-- No binding changes what a name holds. -/
  kept : ∀ name address held, table.lookup name = some held →
    (table.serve (.bind name address)).2.lookup name = some held
  moved : ∀ name address, (table.serve (.rebind name address)).1 = .moved (table.lookup name)
  /-- A request is about one name only. -/
  others : ∀ (request : Request) (name : String), request.name ≠ name →
    (table.serve request).2.lookup name = table.lookup name
  size : table.size = 23 + (givenNames requests).card
  /-- No name is lost. -/
  stays : ∀ (more : List Request) (name : String), (table.lookup name).isSome →
    ((after (requests ++ more)).lookup name).isSome

/-- Whatever a table was asked before, it remembers it. -/
theorem remembers_history (requests : List Request) : Remembers requests (after requests) where
  lookup := lookup_after requests
  found name := by rw [serve, lookup_after]
  contains := contains_eq_isSome_lookup (after requests)
  refused _ _ _ _ := serve_bind_eq_refused_iff
  kept _ address _ holds := lookup_serve_bind (after requests) holds address
  moved _ _ := rfl
  others _ _ other := lookup_serve_of_ne (after requests) other
  size := size_after requests
  stays more _ known := isSome_lookup_after_append known more

/-- The second binding of `A` is refused, then `A` is moved, and it stays where it was moved. -/
example : ((after [.bind "A" 4, .bind "A" 9, .rebind "A" 5, .bind "A" 4]).serve
    (.bind "A" 6)).1 = .refused 5 := by
  decide +kernel

end HackAssembler.SymbolTable
