import HackAssembler.FileStore
import HackAssembler.Location

/-!
# Disks

A file store that is a value: a tree of directories without links, given as a table of what lies at
which location. No location is listed twice, and the order of the table is the order in which a
directory tells its names.

A path is followed one component at a time, and each component has to start from a directory that
is there. So `a/../b` needs a directory `a`, and `f/.` does not lead to the file `f`. A name that is
too long is only noticed where something is looked up under it: `nope/` and a long name behind it
fails for want of `nope`.

A disk may refuse what its content would allow, as for want of permission. Which accesses it refuses
does not change with its content.
-/

set_option autoImplicit false

namespace HackAssembler

inductive Node where
  | file (content : ByteArray)
  | directory

instance : DecidableEq Node
  | .directory, .directory => isTrue rfl
  | .file _, .directory => isFalse Node.noConfusion
  | .directory, .file _ => isFalse Node.noConfusion
  | .file a, .file b =>
    decidable_of_iff (a.data = b.data)
      ⟨fun same => congrArg Node.file (ByteArray.ext same), fun same => by
        injection same with content
        rw [content]⟩

/-- What is done with a file or directory. -/
inductive Access where
  /-- Going on from a directory. -/
  | enter
  /-- Reading the names in a directory. -/
  | list
  | read
  /-- Creating a file or replacing its content. -/
  | write
  deriving Repr, DecidableEq

/-- Files and directories, and the directory that relative paths start from. -/
structure Disk where
  nodes : List (Location × Node)
  current : Location
  /-- Why an access is refused at a location that it could be made at, if it is. -/
  refusal? : Access → Location → Option AccessError := fun _ _ => none
  distinct : (nodes.map Prod.fst).Nodup

namespace Disk

/-- A table with one location set, in its old place or behind all others. -/
def setNode (location : Location) (node : Node) :
    List (Location × Node) → List (Location × Node)
  | [] => [(location, node)]
  | entry :: rest =>
    if entry.1 = location then (location, node) :: rest else entry :: setNode location node rest

theorem mem_keys_setNode {location other : Location} {node : Node}
    {nodes : List (Location × Node)} :
    other ∈ (setNode location node nodes).map Prod.fst ↔
      other = location ∨ other ∈ nodes.map Prod.fst := by
  induction nodes with
  | nil => simp [setNode]
  | cons entry rest ih =>
    rw [setNode]
    split
    · next same => subst same; simp
    · simp only [List.map_cons, List.mem_cons, ih]
      constructor
      · rintro (h | h | h) <;> simp [h]
      · rintro (h | h | h) <;> simp [h]

theorem nodup_keys_setNode {location : Location} {node : Node} {nodes : List (Location × Node)}
    (h : (nodes.map Prod.fst).Nodup) : ((setNode location node nodes).map Prod.fst).Nodup := by
  induction nodes with
  | nil => simp [setNode]
  | cons entry rest ih =>
    rw [List.map_cons, List.nodup_cons] at h
    rw [setNode]
    split
    · next same => subst same; simpa using h
    · next different =>
      rw [List.map_cons, List.nodup_cons, mem_keys_setNode]
      exact ⟨not_or.2 ⟨different, h.1⟩, ih h.2⟩

theorem lookup_setNode (location other : Location) (node : Node)
    (nodes : List (Location × Node)) :
    (setNode location node nodes).lookup other =
      if other = location then some node else nodes.lookup other := by
  induction nodes with
  | nil =>
    by_cases h : other = location
    · simp [setNode, h]
    · simp [setNode, List.lookup_cons, h, beq_eq_false_iff_ne.2 h]
  | cons entry rest ih =>
    rw [setNode]
    by_cases same : entry.1 = location
    · rw [if_pos same, List.lookup_cons, List.lookup_cons, same]
      by_cases h : other = location
      · simp [h]
      · simp [h, beq_eq_false_iff_ne.2 h]
    · rw [if_neg same, List.lookup_cons, List.lookup_cons, ih]
      by_cases h : other = entry.1
      · simp [h, same]
      · simp [beq_eq_false_iff_ne.2 h]

/-- What lies at a location; the root is always a directory. -/
def node? (disk : Disk) (location : Location) : Option Node :=
  if location = [] then some .directory else disk.nodes.lookup location

/-- The disk with something put at a location, in place of what was there. -/
def put (disk : Disk) (location : Location) (node : Node) : Disk :=
  { disk with
    nodes := setNode location node disk.nodes
    distinct := nodup_keys_setNode disk.distinct }

/-- The disk without what lies at a location. -/
def drop (disk : Disk) (location : Location) : Disk :=
  { disk with
    nodes := disk.nodes.filter fun entry => decide (entry.1 ≠ location)
    distinct := disk.distinct.sublist (List.filter_sublist.map _) }

theorem node?_put {disk : Disk} {location other : Location} {node : Node} (h : location ≠ []) :
    (disk.put location node).node? other =
      if other = location then some node else disk.node? other := by
  unfold node? put
  by_cases root : other = []
  · simp [root, h.symm]
  · simp [root, lookup_setNode]

/-- What lies at a location, or why there is nothing to be found. -/
def look (disk : Disk) (location : Location) : Except AccessError Node :=
  if location.getLast?.any FileName.tooLong then .error .nameTooLong
  else
    match disk.node? location with
    | none => .error .notFound
    | some node => .ok node

/-- The result of an access, unless it is refused. -/
def permit {α : Type} (disk : Disk) (access : Access) (location : Location) (result : α) :
    Except AccessError α :=
  match disk.refusal? access location with
  | some cause => .error cause
  | none => .ok result

/-- Makes one move, which has to start from a directory. -/
def enter (disk : Disk) (here : Location) (step : Step) : Except AccessError Location := do
  match ← disk.look here with
  | .file _ => .error .notDirectory
  | .directory => disk.permit .enter here (step.target here)

/-- Where the moves of a path start. -/
def origin (disk : Disk) (path : String) : Location :=
  if path.toList.head? = some '/' then [] else disk.current

/-- The location that a path leads to, whether something lies there or not. -/
def locate (disk : Disk) (path : String) : Except AccessError Location :=
  match AccessError.ofPath? path with
  | some cause => .error cause
  | none => (Step.ofPath path).foldlM disk.enter (disk.origin path)

/-- Whether a path ends with a slash, as only the path of a directory may. -/
def endsWithSlash (path : String) : Bool := path.toList.getLast? == some '/'

/-- What lies where a path leads to. -/
def find (disk : Disk) (path : String) : Except AccessError (Location × Node) := do
  let location ← disk.locate path
  match ← disk.look location with
  | .directory => .ok (location, .directory)
  | .file content =>
    if endsWithSlash path then .error .notDirectory else .ok (location, .file content)

def isDirectory (disk : Disk) (path : String) : Bool :=
  match disk.find path with
  | .ok (_, .directory) => true
  | _ => false

def isFile (disk : Disk) (path : String) : Bool :=
  match disk.find path with
  | .ok (_, .file _) => true
  | _ => false

/-- The name of a location within a directory, if it lies directly inside. -/
def nameIn? (directory location : Location) : Option FileName :=
  if location.dropLast = directory then location.getLast? else none

/-- The names in a directory, in the order of the table. -/
def names (disk : Disk) (path : String) : Except AccessError (List String) := do
  match ← disk.find path with
  | (_, .file _) => .error .notDirectory
  | (location, .directory) =>
    disk.permit .list location
      (disk.nodes.filterMap fun entry => (nameIn? location entry.1).map FileName.text)

def read (disk : Disk) (path : String) : Except AccessError ByteArray := do
  match ← disk.find path with
  | (location, .file content) => disk.permit .read location content
  | (_, .directory) => .error .isDirectory

/-- Whether the end of a path can name a file: it is a name, with no slash behind. -/
def endsWithName (path : String) : Bool :=
  match (Step.ofPath path).getLast? with
  | some (.down _) => !endsWithSlash path
  | _ => false

/-- The disk after a file was created or its content replaced. -/
def write (disk : Disk) (path : String) (content : ByteArray) : Except AccessError Disk := do
  let location ← disk.locate path
  if endsWithName path then
    match disk.look location with
    | .ok .directory => .error .isDirectory
    | .ok (.file _) | .error .notFound =>
      disk.permit .write location (disk.put location (.file content))
    | .error cause => .error cause
  else .error .isDirectory

instance : FileStore (StateM Disk) where
  isDirectory path := return (← get).isDirectory path
  isFile path := return (← get).isFile path
  names path := return (← get).names path
  read path := return (← get).read path
  write path content := do
    match (← get).write path content with
    | .ok disk =>
      set disk
      return .ok ()
    | .error cause => return .error cause

/-- Makes a move, and a directory where it leads to if nothing lies there. -/
def reach (state : Disk × Location) (step : Step) : Disk × Location :=
  let (disk, here) := state
  let there := step.target here
  (if (disk.node? there).isSome then disk else disk.put there .directory, there)

/-- The disk with a directory, and all directories above it. -/
def makeDirectory (disk : Disk) (path : String) : Disk :=
  ((Step.ofPath path).foldl reach (disk, disk.origin path)).1

/-- The disk with a file and all directories above it, if the path can name a file. -/
def store (disk : Disk) (path : String) (content : ByteArray) : Disk :=
  let directory := String.ofList (Path.parts path.toList).directory
  match (disk.makeDirectory directory).write path content with
  | .ok stored => stored
  | .error _ => disk

/-- The disk without a file; a path that leads to none is ignored. -/
def remove (disk : Disk) (path : String) : Disk :=
  match disk.find path with
  | .ok (location, .file _) => disk.drop location
  | _ => disk

/-- A directory to work in, on a disk that holds nothing else. -/
def blank : Disk :=
  let work : Location := [⟨"work", by decide⟩]
  { nodes := [(work, .directory)], current := work, distinct := by simp }

end Disk

end HackAssembler
