import HackAssembler.Word
import Std.Data.TreeMap

/-!
# The symbol table

A finite map from names to addresses. It starts with the names that the machine reserves. A name is
bound at most once: binding it again to the address it holds changes nothing, binding it to another
address is refused, and only `rebind` moves a name.

Every operation is described by what `lookup` finds afterwards, and by the number of names.
-/

set_option autoImplicit false

namespace HackAssembler

/-- The names that a program finds bound before it declares anything. -/
def reservedNames : List (String × Word) :=
  [("SP", 0), ("LCL", 1), ("ARG", 2), ("THIS", 3), ("THAT", 4),
    ("R0", 0), ("R1", 1), ("R2", 2), ("R3", 3), ("R4", 4), ("R5", 5), ("R6", 6), ("R7", 7),
    ("R8", 8), ("R9", 9), ("R10", 10), ("R11", 11), ("R12", 12), ("R13", 13), ("R14", 14),
    ("R15", 15), ("SCREEN", 0x4000), ("KBD", 0x6000)]

/-- The addresses that names stand for. -/
structure SymbolTable where
  addresses : Std.TreeMap String Word

namespace SymbolTable

def lookup (table : SymbolTable) (name : String) : Option Word := table.addresses[name]?

def contains (table : SymbolTable) (name : String) : Bool := table.addresses.contains name

def size (table : SymbolTable) : Nat := table.addresses.size

def isEmpty (table : SymbolTable) : Bool := table.addresses.isEmpty

/-- Gives a name an address, whether it has one already or not. -/
def insert (table : SymbolTable) (name : String) (address : Word) : SymbolTable :=
  ⟨table.addresses.insert name address⟩

/-- The table of some names and addresses; the first address of a name counts. -/
def ofList (entries : List (String × Word)) : SymbolTable :=
  entries.foldr (fun entry table => table.insert entry.1 entry.2) ⟨∅⟩

def reserved : SymbolTable := ofList reservedNames

/-- Binds a name to an address; if it is bound to another one, answers that one and refuses. -/
def bind (table : SymbolTable) (name : String) (address : Word) : Except Word SymbolTable :=
  match table.lookup name with
  | none => .ok (table.insert name address)
  | some previous => if previous = address then .ok table else .error previous

/-- Moves a name to an address, and answers the address that it had before. -/
def rebind (table : SymbolTable) (name : String) (address : Word) : Option Word × SymbolTable :=
  (table.lookup name, table.insert name address)

theorem contains_eq_isSome_lookup (table : SymbolTable) (name : String) :
    table.contains name = (table.lookup name).isSome := by
  simp [contains, lookup]

theorem lookup_insert (table : SymbolTable) (name other : String) (address : Word) :
    (table.insert name address).lookup other =
      if name = other then some address else table.lookup other := by
  simp [insert, lookup, Std.TreeMap.getElem?_insert]

theorem size_insert (table : SymbolTable) (name : String) (address : Word) :
    (table.insert name address).size =
      if (table.lookup name).isSome then table.size else table.size + 1 := by
  rw [← contains_eq_isSome_lookup]
  simp [insert, size, contains, Std.TreeMap.size_insert]

/-- A binding is refused exactly when the name holds another address. -/
theorem bind_eq_error_iff {table : SymbolTable} {name : String} {address previous : Word} :
    table.bind name address = .error previous ↔
      table.lookup name = some previous ∧ previous ≠ address := by
  unfold bind
  cases h : table.lookup name with
  | none => simp
  | some held =>
    by_cases same : held = address
    · subst same
      simpa using fun h => Eq.symm h
    · simp [same]
      rintro rfl
      exact same

theorem lookup_ofList (entries : List (String × Word)) (name : String) :
    (ofList entries).lookup name = entries.lookup name := by
  induction entries with
  | nil => simp [ofList, lookup]
  | cons entry rest ih =>
    have step : ofList (entry :: rest) = (ofList rest).insert entry.1 entry.2 := rfl
    rw [step, lookup_insert, List.lookup_cons, ih]
    by_cases same : entry.1 = name
    · simp [same]
    · simp [same, beq_eq_false_iff_ne.2 (Ne.symm same)]

theorem lookup_reserved (name : String) : reserved.lookup name = reservedNames.lookup name :=
  lookup_ofList reservedNames name

theorem size_reserved : reserved.size = 23 := by
  decide +kernel

end SymbolTable

end HackAssembler
