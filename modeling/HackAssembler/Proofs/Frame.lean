import HackAssembler.Disk
import HackAssembler.Proofs.Paths
import Mathlib.Data.List.Induction

/-!
# What a write leaves alone

A file is written at one location, where no directory lies. So every directory stays where it is,
and every path through it leads where it led before; what a path leads to is the same unless it is
the file that was written. `SameOutside` collects what is left alone by any number of writes, and
`UsedAlike` what it takes for a path to be used in the same way on two disks.
-/

set_option autoImplicit false

namespace HackAssembler

theorem bind_eq_ok_iff {ε α β : Type} {first : Except ε α} {next : α → Except ε β} {b : β} :
    (first >>= next) = .ok b ↔ ∃ a, first = .ok a ∧ next a = .ok b := by
  cases first <;> simp [bind, Except.bind]

namespace Disk

variable {disk after : Disk} {path directory name : String} {here location : Location}
  {node : Node} {step : Step} {places : Location → Prop}

/-! ## Looking -/

theorem look_eq_ok_iff :
    disk.look location = .ok node ↔
      location.getLast?.any FileName.tooLong = false ∧ disk.node? location = some node := by
  unfold look
  cases location.getLast?.any FileName.tooLong <;> cases disk.node? location <;> simp

theorem look_congr (same : after.node? location = disk.node? location) :
    after.look location = disk.look location := by
  rw [look, same, look]

theorem permit_eq_ok_iff {α : Type} {access : Access} {result answer : α} :
    disk.permit access location result = .ok answer ↔
      disk.refusal? access location = none ∧ result = answer := by
  unfold permit
  cases disk.refusal? access location <;> simp

/-- A move can be made from a directory that may be gone on from. -/
theorem enter_eq_ok_iff :
    disk.enter here step = .ok location ↔
      disk.look here = .ok .directory ∧ disk.refusal? .enter here = none ∧
        step.target here = location := by
  rw [enter, bind_eq_ok_iff]
  constructor
  · rintro ⟨node, seen, enters⟩
    cases node with
    | file content => contradiction
    | directory => exact ⟨seen, permit_eq_ok_iff.1 enters⟩
  · rintro ⟨seen, permitted⟩
    exact ⟨.directory, seen, permit_eq_ok_iff.2 permitted⟩

theorem find_eq_directory_iff :
    disk.find path = .ok (location, .directory) ↔
      disk.locate path = .ok location ∧ disk.look location = .ok .directory := by
  rw [find, bind_eq_ok_iff]
  constructor
  · rintro ⟨place, located, found⟩
    obtain ⟨node, seen, found⟩ := bind_eq_ok_iff.1 found
    cases node with
    | directory =>
      obtain ⟨rfl, -⟩ := Prod.mk.inj (Except.ok.inj found)
      exact ⟨located, seen⟩
    | file content =>
      dsimp only at found
      split at found <;> simp at found
  · rintro ⟨located, seen⟩
    exact ⟨location, located, bind_eq_ok_iff.2 ⟨.directory, seen, rfl⟩⟩

theorem find_eq_file_iff {content : ByteArray} :
    disk.find path = .ok (location, .file content) ↔
      disk.locate path = .ok location ∧ disk.look location = .ok (.file content) ∧
        endsWithSlash path = false := by
  rw [find, bind_eq_ok_iff]
  constructor
  · rintro ⟨place, located, found⟩
    obtain ⟨node, seen, found⟩ := bind_eq_ok_iff.1 found
    cases node with
    | directory => simp at found
    | file content =>
      dsimp only at found
      split at found
      · contradiction
      · rename_i plain
        obtain ⟨rfl, same⟩ := Prod.mk.inj (Except.ok.inj found)
        rw [← same]
        exact ⟨located, seen, Bool.eq_false_iff.2 plain⟩
  · rintro ⟨located, seen, plain⟩
    refine ⟨location, located, bind_eq_ok_iff.2 ⟨.file content, seen, ?_⟩⟩
    dsimp only
    rw [plain, if_neg Bool.false_ne_true]

/-- A path that leads to a directory is not empty. -/
theorem ne_empty_of_locate (located : disk.locate path = .ok location) : path ≠ "" := by
  rintro rfl
  have refused : AccessError.ofPath? "" = some .notFound := by decide
  rw [locate, refused] at located
  contradiction

/-! ## Writing -/

/-- Where a file is created or replaced under a path, or why that is refused. -/
def target (disk : Disk) (path : String) : Except AccessError Location := do
  let location ← disk.locate path
  if endsWithName path then
    match disk.look location with
    | .ok .directory => .error .isDirectory
    | .ok (.file _) | .error .notFound => disk.permit .write location location
    | .error cause => .error cause
  else .error .isDirectory

theorem write_eq (disk : Disk) (path : String) (content : ByteArray) :
    disk.write path content =
      (disk.target path).map fun location => disk.put location (.file content) := by
  have permitted (location : Location) :
      disk.permit .write location (disk.put location (.file content)) =
        (disk.permit .write location location).map fun location =>
          disk.put location (.file content) := by
    unfold permit
    cases disk.refusal? .write location <;> rfl
  unfold write target
  cases disk.locate path with
  | error cause => rfl
  | ok location =>
    simp only [bind, Except.bind]
    cases endsWithName path with
    | false => rfl
    | true =>
      simp only [if_true]
      rcases disk.look location with cause | node
      · cases cause <;> first | exact permitted location | rfl
      · cases node with
        | directory => rfl
        | file old => exact permitted location

/-- A file is written where the path leads, if its end can name a file and no directory lies
there. -/
theorem of_target (writes : disk.target path = .ok location) :
    disk.locate path = .ok location ∧ endsWithName path = true ∧
      disk.node? location ≠ some .directory := by
  obtain ⟨place, located, goes⟩ := bind_eq_ok_iff.1 writes
  split at goes
  · rename_i ends
    split at goes
    · contradiction
    · rename_i content seen
      obtain ⟨-, rfl⟩ := permit_eq_ok_iff.1 goes
      refine ⟨located, ends, fun lies => ?_⟩
      rw [(look_eq_ok_iff.1 seen).2] at lies
      exact Node.noConfusion (Option.some.inj lies)
    · rename_i seen
      obtain ⟨-, rfl⟩ := permit_eq_ok_iff.1 goes
      refine ⟨located, ends, fun lies => ?_⟩
      unfold look at seen
      split at seen
      · contradiction
      · rw [lies] at seen
        contradiction
    · contradiction
  · contradiction

theorem ne_root_of_target (writes : disk.target path = .ok location) : location ≠ [] := by
  rintro rfl
  exact (of_target writes).2.2 rfl

/-! ## Several writes -/

/-- The disk with several things put at their locations, one after the other. -/
def putAll (disk : Disk) (changes : List (Location × Node)) : Disk :=
  changes.foldl (fun disk change => disk.put change.1 change.2) disk

theorem putAll_concat (disk : Disk) (changes : List (Location × Node)) (location : Location)
    (node : Node) :
    disk.putAll (changes ++ [(location, node)]) = (disk.putAll changes).put location node := by
  rw [putAll, List.foldl_append, putAll]
  rfl

/-- Nothing but what lies at locations is changed. -/
theorem putAll_setting (disk : Disk) (changes : List (Location × Node)) :
    (disk.putAll changes).current = disk.current ∧
      (disk.putAll changes).refusal? = disk.refusal? := by
  induction changes using List.reverseRecOn with
  | nil => exact ⟨rfl, rfl⟩
  | append_singleton changes last ih =>
    rw [putAll_concat]
    exact ih

theorem node?_putAll_of_notMem {changes : List (Location × Node)}
    (proper : ∀ change ∈ changes, change.1 ≠ [])
    (untouched : location ∉ changes.map Prod.fst) :
    (disk.putAll changes).node? location = disk.node? location := by
  induction changes using List.reverseRecOn with
  | nil => rfl
  | append_singleton changes last ih =>
    rw [List.map_append, List.map_singleton, List.mem_append, List.mem_singleton, not_or]
      at untouched
    rw [putAll_concat, node?_put (proper last (by simp)), if_neg untouched.2]
    exact ih (fun change found => proper change (List.mem_append_left _ found)) untouched.1

theorem node?_putAll_of_mem {changes : List (Location × Node)}
    (proper : ∀ change ∈ changes, change.1 ≠ []) (distinct : (changes.map Prod.fst).Nodup)
    (found : (location, node) ∈ changes) :
    (disk.putAll changes).node? location = some node := by
  induction changes using List.reverseRecOn with
  | nil => contradiction
  | append_singleton changes last ih =>
    rw [List.map_append, List.map_singleton, List.nodup_append] at distinct
    rw [putAll_concat, node?_put (proper last (by simp))]
    rcases List.mem_append.1 found with before | here
    · have other : location ≠ last.1 :=
        distinct.2.2 location (List.mem_map_of_mem before) last.1 (by simp)
      rw [if_neg other]
      exact ih (fun change found => proper change (List.mem_append_left _ found)) distinct.1 before
    · obtain rfl := List.mem_singleton.1 here
      rw [if_pos rfl]

/-! ## What stays -/

/-- The disks are alike but for what lies at some places, where the first one has no directory. -/
structure SameOutside (places : Location → Prop) (disk after : Disk) : Prop where
  current : after.current = disk.current
  refusal : after.refusal? = disk.refusal?
  free : ∀ location, places location → disk.node? location ≠ some .directory
  node : ∀ location, ¬ places location → after.node? location = disk.node? location

theorem sameOutside_putAll {changes : List (Location × Node)}
    (free : ∀ change ∈ changes, disk.node? change.1 ≠ some .directory) :
    SameOutside (· ∈ changes.map Prod.fst) disk (disk.putAll changes) where
  current := (putAll_setting disk changes).1
  refusal := (putAll_setting disk changes).2
  free location touched := by
    obtain ⟨change, found, rfl⟩ := List.mem_map.1 touched
    exact free change found
  node location untouched := by
    refine node?_putAll_of_notMem (fun change found root => ?_) untouched
    apply free change found
    rw [root]
    rfl

theorem sameOutside_put (free : disk.node? location ≠ some .directory) (node : Node) :
    SameOutside (· = location) disk (disk.put location node) where
  current := rfl
  refusal := rfl
  free other touched := by rwa [touched]
  node other untouched := by
    have root : location ≠ [] := by
      rintro rfl
      exact free rfl
    rw [node?_put root, if_neg untouched]

namespace SameOutside

variable (same : SameOutside places disk after)

include same

theorem node?_directory (lies : disk.node? location = some .directory) :
    after.node? location = some .directory := by
  rw [same.node location fun touched => same.free location touched lies, lies]

theorem look_directory (seen : disk.look location = .ok .directory) :
    after.look location = .ok .directory := by
  rw [look_eq_ok_iff] at seen ⊢
  exact ⟨seen.1, same.node?_directory seen.2⟩

theorem enter_eq_ok (enters : disk.enter here step = .ok location) :
    after.enter here step = .ok location := by
  rw [enter_eq_ok_iff] at enters ⊢
  rw [same.refusal]
  exact ⟨same.look_directory enters.1, enters.2⟩

theorem origin_eq (path : String) : after.origin path = disk.origin path := by
  rw [origin, same.current, origin]

/-- Paths lead where they led before. -/
theorem locate_eq_ok (located : disk.locate path = .ok location) :
    after.locate path = .ok location := by
  have moves (steps : List Step) (here : Location)
      (goes : steps.foldlM disk.enter here = .ok location) :
      steps.foldlM after.enter here = .ok location := by
    induction steps generalizing here with
    | nil => exact goes
    | cons step rest ih =>
      rw [List.foldlM_cons, bind_eq_ok_iff] at goes ⊢
      obtain ⟨there, enters, goes⟩ := goes
      exact ⟨there, same.enter_eq_ok enters, ih there goes⟩
  unfold locate at located ⊢
  rw [same.origin_eq]
  split at located
  · contradiction
  · exact moves _ _ located

theorem find_directory (found : disk.find path = .ok (location, .directory)) :
    after.find path = .ok (location, .directory) := by
  rw [find_eq_directory_iff] at found ⊢
  exact ⟨same.locate_eq_ok found.1, same.look_directory found.2⟩

end SameOutside

/-! ## Ways -/

theorem origin_of_cut {before last : List Char} (cut : Path.Cut path before last) :
    disk.origin path = disk.origin (String.ofList before) := by
  unfold origin
  rw [cut.text, String.toList_ofList]
  rcases cut.eq_nil_or_concat with rfl | ⟨text, rfl⟩
  · have other : last.head? ≠ some '/' := fun head => cut.clean (List.mem_of_head? head)
    rw [List.nil_append, if_neg other]
    rfl
  · rw [List.head?_append_of_ne_nil _ (by simp)]

/-- A path leads where its last component leads from the directory at the end of the way before. -/
theorem locate_of_cut {before last : List Char} (cut : Path.Cut path before last)
    (reads : Step.ofComponent? last = some step) (located : disk.locate path = .ok location) :
    ∃ here, (Step.ofPath (String.ofList before)).foldlM disk.enter
        (disk.origin (String.ofList before)) = .ok here ∧
      disk.look here = .ok .directory ∧ location = step.target here := by
  unfold locate at located
  split at located
  · contradiction
  · rw [origin_of_cut cut, Step.ofPath_of_cut cut, reads, List.foldlM_append] at located
    obtain ⟨here, moves, move⟩ := bind_eq_ok_iff.1 located
    obtain ⟨there, enters, same⟩ := bind_eq_ok_iff.1 move
    obtain rfl := Except.ok.inj same
    obtain ⟨directory, -, goes⟩ := enter_eq_ok_iff.1 enters
    exact ⟨here, moves, directory, goes.symm⟩

/-! ## Files in a directory -/

theorem origin_join (named : directory ≠ "") (name : String) :
    disk.origin (Path.join directory name) = disk.origin directory := by
  have start : (Path.join directory name).toList.head? = directory.toList.head? := by
    have filled : directory.toList ≠ [] := by simpa using named
    rw [Path.toList_join named, Path.front]
    split <;> rw [List.head?_append_of_ne_nil _ (by simp [filled])]
    rw [List.head?_append_of_ne_nil _ filled]
  rw [origin, start, origin]

/-- The path of something in a directory leads one move further, unless it is no path at all or the
directory may not be gone on from. -/
theorem locate_join (found : disk.find directory = .ok (here, .directory))
    (reads : Step.ofComponent? name.toList = some step) :
    disk.locate (Path.join directory name) =
      match AccessError.ofPath? (Path.join directory name) with
      | some cause => .error cause
      | none => disk.permit .enter here (step.target here) := by
  obtain ⟨located, seen⟩ := find_eq_directory_iff.1 found
  have named := ne_empty_of_locate located
  have moves : (Step.ofPath directory).foldlM disk.enter (disk.origin directory) = .ok here := by
    unfold locate at located
    split at located
    · contradiction
    · exact located
  rw [locate, origin_join named, Step.ofPath_join named reads, List.foldlM_append, moves]
  cases AccessError.ofPath? (Path.join directory name) with
  | some cause => rfl
  | none =>
    have enters : disk.enter here step = disk.permit .enter here (step.target here) := by
      rw [enter, seen]
      rfl
    show disk.enter here step >>= pure = _
    rw [bind_pure, enters]

theorem locate_join_eq_ok (found : disk.find directory = .ok (here, .directory))
    (reads : Step.ofComponent? name.toList = some step)
    (located : disk.locate (Path.join directory name) = .ok location) :
    location = step.target here := by
  rw [locate_join found reads] at located
  split at located
  · contradiction
  · exact (permit_eq_ok_iff.1 located).2.symm

theorem nameIn?_eq_some_iff {name : FileName} :
    nameIn? here location = some name ↔ location = here ++ [name] := by
  unfold nameIn?
  constructor
  · intro inside
    split at inside
    · rename_i lies
      rw [← lies, List.dropLast_append_getLast? name inside]
    · contradiction
  · rintro rfl
    simp

/-- The names in a directory are names of files and directories, and no two are the same. -/
theorem of_names {names : List String} (lists : disk.names path = .ok names) :
    ∃ here, disk.find path = .ok (here, .directory) ∧
      (∀ name ∈ names, ∃ file : FileName, name = file.text) ∧ names.Nodup := by
  obtain ⟨⟨location, node⟩, found, lists⟩ := bind_eq_ok_iff.1 lists
  cases node with
  | file content => contradiction
  | directory =>
    obtain ⟨-, rfl⟩ := permit_eq_ok_iff.1 lists
    refine ⟨location, found, ?_, ?_⟩
    · intro name inside
      obtain ⟨entry, -, named⟩ := List.mem_filterMap.1 inside
      obtain ⟨file, -, rfl⟩ := Option.map_eq_some_iff.1 named
      exact ⟨file, rfl⟩
    · have distinct := disk.distinct
      rw [List.Nodup, List.pairwise_map] at distinct
      rw [List.Nodup, List.pairwise_filterMap]
      refine distinct.imp ?_
      rintro entry entry' different name named name' named' rfl
      obtain ⟨file, inside, text⟩ := Option.map_eq_some_iff.1 named
      obtain ⟨file', inside', text'⟩ := Option.map_eq_some_iff.1 named'
      obtain rfl : file = file' := FileName.ext (text.trans text'.symm)
      rw [nameIn?_eq_some_iff] at inside inside'
      exact different (inside.trans inside'.symm)

/-- The path is used in the same way on both disks. -/
structure UsedAlike (disk after : Disk) (path : String) : Prop where
  refusal : after.refusal? = disk.refusal?
  locate : after.locate path = disk.locate path
  node : ∀ location, disk.locate path = .ok location → after.node? location = disk.node? location

namespace UsedAlike

variable (alike : UsedAlike disk after path)

include alike

theorem find_eq : after.find path = disk.find path := by
  rw [find, find, alike.locate]
  cases located : disk.locate path with
  | error cause => rfl
  | ok location =>
    show (after.look location >>= _) = (disk.look location >>= _)
    rw [look_congr (alike.node location located)]

theorem read_eq : after.read path = disk.read path := by
  unfold read permit
  rw [alike.find_eq, alike.refusal]

theorem target_eq : after.target path = disk.target path := by
  unfold target permit
  rw [alike.locate, alike.refusal]
  cases located : disk.locate path with
  | error cause => rfl
  | ok location =>
    simp only [bind, Except.bind]
    rw [look_congr (alike.node location located)]

end UsedAlike

/-- What lies in a directory is used alike as long as nothing else lies there. -/
theorem SameOutside.usedAlike (same : SameOutside places disk after)
    (found : disk.find directory = .ok (here, .directory))
    (reads : Step.ofComponent? name.toList = some step) (untouched : ¬ places (step.target here)) :
    UsedAlike disk after (Path.join directory name) where
  refusal := same.refusal
  locate := by
    rw [locate_join (same.find_directory found) reads, locate_join found reads, permit, permit,
      same.refusal]
  node location located := by
    obtain rfl := locate_join_eq_ok found reads located
    exact same.node _ untouched

end Disk

end HackAssembler
