import Mathlib.Data.List.Sort
import Mathlib.Data.Set.List
import Mathlib.Data.String.Basic
import HackAssembler.Proofs.ByteOrder
import HackAssembler.Proofs.Outputs

/-!
# Finding the sources of a directory

A build of a directory takes the files directly inside it whose names end with `.asm`, in the order
of the bytes of their names (`discovered_sources`). What it takes does not depend on the order in
which the directory tells its names, as a set of names has one order only.

A file is only taken if its path can be followed, and one that is not taken is not reported. The
path of a directory may be short enough for the system while those of its files are not, and then
the build finds no source in it (`discover_of_long_path`, `source_overlooked`).
-/

set_option autoImplicit false

namespace HackAssembler

/-! ## Slashes at the end -/

/-- A number of slashes. -/
def slashes (count : Nat) : String := String.ofList (List.replicate count '/')

theorem slashes_succ (count : Nat) : slashes (count + 1) = slashes count ++ "/" := by
  rw [slashes, List.replicate_succ', String.ofList_append]
  rfl

theorem utf8ByteSize_slashes (count : Nat) : (slashes count).utf8ByteSize = count := by
  induction count with
  | zero => rfl
  | succ count ih =>
    rw [slashes_succ, String.utf8ByteSize_append, ih]
    rfl

theorem Step.ofPath_append_slash (path : String) : ofPath (path ++ "/") = ofPath path := by
  have slash : "/".toList = '/' :: [] := rfl
  rw [ofPath, String.toList_append, slash, Text.splitAtEach_append, List.filterMap_append]
  simp [Text.splitAtEach, ofComponent?_nil, ofPath]

theorem Step.ofPath_append_slashes (path : String) (count : Nat) :
    ofPath (path ++ slashes count) = ofPath path := by
  induction count with
  | zero => rw [slashes, List.replicate_zero, String.ofList_nil, String.append_empty]
  | succ count ih => rw [slashes_succ, ← String.append_assoc, ofPath_append_slash, ih]

/-- What a text needs to be taken as a path. -/
theorem AccessError.ofPath?_eq_none_iff {path : String} :
    ofPath? path = none ↔
      '\x00' ∉ path.toList ∧ path ≠ "" ∧ path.utf8ByteSize ≤ Path.maxBytes := by
  unfold ofPath?
  by_cases nul : '\x00' ∈ path.toList
  · simp [nul]
  by_cases empty : path = ""
  · simp [empty]
  by_cases long : Path.maxBytes < path.utf8ByteSize
  · simp [nul, empty, long]
  · simp [nul, empty, long, Nat.le_of_not_lt long]

theorem AccessError.ofPath?_append_slashes {path : String} (taken : ofPath? path = none)
    {count : Nat} (fits : path.utf8ByteSize + count ≤ Path.maxBytes) :
    ofPath? (path ++ slashes count) = none := by
  rw [ofPath?_eq_none_iff] at taken ⊢
  obtain ⟨nul, named, -⟩ := taken
  refine ⟨?_, ?_, ?_⟩
  · rw [String.toList_append, List.mem_append, not_or, slashes, String.toList_ofList]
    exact ⟨nul, fun found => absurd (List.eq_of_mem_replicate found) (by decide)⟩
  · exact fun empty => named (String.append_eq_empty_iff.1 empty).1
  · rwa [String.utf8ByteSize_append, utf8ByteSize_slashes]

namespace Disk

variable {disk other : Disk} {directory : String} {here location : Location} {name : FileName}

/-! ## Tables in any order -/

theorem lookup_eq_some_iff_mem {nodes : List (Location × Node)} {node : Node}
    (distinct : (nodes.map Prod.fst).Nodup) :
    nodes.lookup location = some node ↔ (location, node) ∈ nodes := by
  induction nodes with
  | nil => simp
  | cons entry rest ih =>
    rw [List.map_cons, List.nodup_cons] at distinct
    rw [List.lookup_cons, List.mem_cons]
    by_cases here : location = entry.1
    · subst here
      have single : (entry.1, node) ∉ rest := fun found =>
        distinct.1 (List.mem_map.2 ⟨_, found, rfl⟩)
      simp [single, Prod.ext_iff, eq_comm]
    · simp [beq_eq_false_iff_ne.2 here, ih distinct.2, Prod.ext_iff, here]

/-- What lies where does not depend on the order of the table. -/
theorem node?_of_perm (perm : other.nodes.Perm disk.nodes) (location : Location) :
    other.node? location = disk.node? location := by
  unfold node?
  split
  · rfl
  · refine Option.ext fun node => ?_
    rw [lookup_eq_some_iff_mem other.distinct, lookup_eq_some_iff_mem disk.distinct, perm.mem_iff]

/-- A disk on which the same things lie in the same setting. -/
theorem sameOutside_of_perm (perm : other.nodes.Perm disk.nodes)
    (current : other.current = disk.current) (refusal : other.refusal? = disk.refusal?) :
    SameOutside (fun _ => False) disk other where
  current := current
  refusal := refusal
  free _ touched := touched.elim
  node location _ := node?_of_perm perm location

/-! ## What a directory holds -/

/-- The names that a directory tells, if it may be read. -/
theorem exists_names (found : disk.find directory = .ok (here, .directory))
    (readable : disk.refusal? .list here = none) :
    ∃ names, disk.names directory = .ok names ∧ names.Nodup ∧
      (∀ text ∈ names, ∃ name : FileName, name.text = text) ∧
      ∀ name : FileName, name.text ∈ names ↔ (disk.node? (here ++ [name])).isSome := by
  have lists : disk.names directory = .ok (disk.nodes.filterMap fun entry =>
      (nameIn? here entry.1).map FileName.text) := by
    rw [names, found]
    show disk.permit .list here _ = _
    rw [permit, readable]
  obtain ⟨-, -, files, distinct⟩ := of_names lists
  refine ⟨_, lists, distinct, fun text told => ?_, fun name => ?_⟩
  · obtain ⟨name, same⟩ := files text told
    exact ⟨name, same.symm⟩
  · have root : here ++ [name] ≠ [] := by simp
    rw [node?, if_neg root, Option.isSome_iff_exists]
    simp only [lookup_eq_some_iff_mem disk.distinct, List.mem_filterMap, Option.map_eq_some_iff,
      nameIn?_eq_some_iff, Prod.exists]
    constructor
    · rintro ⟨location, node, lies, file, rfl, same⟩
      obtain rfl := FileName.ext same
      exact ⟨node, lies⟩
    · rintro ⟨node, lies⟩
      exact ⟨_, node, lies, name, rfl, rfl⟩

/-- A file that lies directly inside a directory and is named as a source: something, and `.asm`
behind it. -/
def IsSource (disk : Disk) (here : Location) (name : FileName) : Prop :=
  (∃ content, disk.node? (here ++ [name]) = some (.file content)) ∧
    ∃ stem, stem ≠ "" ∧ name.text = stem ++ ".asm"

/-- The path of a name in a directory can be followed: the system takes the path and the name, and
the directory may be gone on from. -/
structure CanReach (disk : Disk) (directory : String) (here : Location) (name : FileName) :
    Prop where
  path : AccessError.ofPath? (Path.join directory name.text) = none
  name : name.tooLong = false
  enter : disk.refusal? .enter here = none

theorem canReach_iff :
    disk.CanReach directory here name ↔ AccessError.ofPath? (Path.join directory name.text) = none ∧
      name.tooLong = false ∧ disk.refusal? .enter here = none :=
  ⟨fun reach => ⟨reach.path, reach.name, reach.enter⟩,
    fun ⟨path, short, enter⟩ => ⟨path, short, enter⟩⟩

theorem endsWithSlash_join (named : directory ≠ "") (name : FileName) :
    endsWithSlash (Path.join directory name.text) = false := by
  have filled : name.text.toList ≠ [] := by
    intro empty
    have valid := name.valid.1
    rw [empty] at valid
    exact absurd valid (by decide)
  rw [endsWithSlash, Path.toList_join named, List.getLast?_append_of_ne_nil _ filled,
    beq_eq_false_iff_ne]
  intro slash
  exact name.valid.2 (List.mem_of_getLast? slash)

/-- A path leads to a file in a directory if the file lies there and the path can be followed. -/
theorem isFile_join_iff (found : disk.find directory = .ok (here, .directory)) :
    disk.isFile (Path.join directory name.text) = true ↔
      (∃ content, disk.node? (here ++ [name]) = some (.file content)) ∧
        disk.CanReach directory here name := by
  have named := ne_empty_of_locate (find_eq_directory_iff.1 found).1
  have leads := locate_join found (Step.ofComponent?_name name)
  have isFile : disk.isFile (Path.join directory name.text) = true ↔
      ∃ location content, disk.find (Path.join directory name.text) =
        .ok (location, .file content) := by
    unfold Disk.isFile
    split
    · rename_i location content same
      simp [same]
    · rename_i other
      simpa using fun location content => other location content
  rw [isFile]
  simp only [find_eq_file_iff, endsWithSlash_join named, look_eq_ok_iff, and_true]
  constructor
  · rintro ⟨location, content, located, short, lies⟩
    rw [leads] at located
    split at located
    · contradiction
    · rename_i fits
      obtain ⟨enter, rfl⟩ := permit_eq_ok_iff.1 located
      exact ⟨⟨content, lies⟩, fits, by simpa [Step.target] using short, enter⟩
  · rintro ⟨⟨content, lies⟩, fits, short, enter⟩
    refine ⟨here ++ [name], content, ?_, by simpa using short, lies⟩
    rw [leads, fits, permit, enter]
    rfl

/-! ## Long paths -/

theorem le_utf8ByteSize_join (directory name : String) :
    directory.utf8ByteSize + name.utf8ByteSize ≤ (Path.join directory name).utf8ByteSize := by
  unfold Path.join
  split
  · rw [String.utf8ByteSize_append]
  · rw [String.utf8ByteSize_append, String.utf8ByteSize_append]
    omega

/-- A source whose path is too long cannot be reached. -/
theorem CanReach.le_maxBytes (reach : disk.CanReach directory here name) :
    directory.utf8ByteSize + name.text.utf8ByteSize ≤ Path.maxBytes := by
  obtain ⟨-, -, short⟩ := AccessError.ofPath?_eq_none_iff.1 reach.path
  exact (le_utf8ByteSize_join directory name.text).trans short

/-- The name of a source has five bytes at least. -/
theorem IsSource.le_utf8ByteSize (source : disk.IsSource here name) :
    5 ≤ name.text.utf8ByteSize := by
  obtain ⟨-, stem, filled, text⟩ := source
  have some : stem.utf8ByteSize ≠ 0 := fun none => filled (String.utf8ByteSize_eq_zero_iff.1 none)
  have extension : ".asm".utf8ByteSize = 4 := rfl
  rw [text, String.utf8ByteSize_append, extension]
  omega

/-- Slashes behind the path of a directory lead to the same directory, as long as the path is not
too long with them. -/
theorem find_append_slashes (found : disk.find directory = .ok (here, .directory)) (count : Nat)
    (fits : directory.utf8ByteSize + count ≤ Path.maxBytes) :
    disk.find (directory ++ slashes count) = .ok (here, .directory) := by
  rw [find_eq_directory_iff] at found ⊢
  obtain ⟨located, seen⟩ := found
  refine ⟨?_, seen⟩
  have named := ne_empty_of_locate located
  have origin : disk.origin (directory ++ slashes count) = disk.origin directory := by
    obtain ⟨c, rest, text⟩ := List.exists_cons_of_ne_nil (mt String.toList_eq_nil_iff.1 named)
    rw [Disk.origin, Disk.origin, String.toList_append, text]
    rfl
  unfold locate at located ⊢
  split at located
  · contradiction
  · rename_i taken
    rw [AccessError.ofPath?_append_slashes taken fits, Step.ofPath_append_slashes, origin]
    exact located

end Disk

namespace Build

variable {disk other : Disk} {directory : String} {here : Location}

/-! ## What is discovered -/

/-- Names that are all different are strictly ordered when they are sorted. -/
theorem pairwise_lt_mergeSort {names : List String} (distinct : names.Nodup) :
    names.mergeSort.Pairwise (· < ·) := by
  have ordered : names.mergeSort.Pairwise fun name later => decide (name ≤ later) = true := by
    refine List.pairwise_mergeSort ?_ ?_ names
    · intro a b c first second
      exact decide_eq_true (le_trans (of_decide_eq_true first) (of_decide_eq_true second))
    · intro a b
      simpa using le_total a b
  have different : names.mergeSort.Nodup := (List.mergeSort_perm names _).nodup_iff.2 distinct
  refine (ordered.and different).imp ?_
  rintro name later ⟨least, other⟩
  exact lt_of_le_of_ne (of_decide_eq_true least) other

/-- The answer of a directory that may be read: the paths of its sources that can be followed, in
the order of their names. -/
theorem exists_sources (found : disk.find directory = .ok (here, .directory))
    (readable : disk.refusal? .list here = none) :
    ∃ sources : List FileName,
      (discover directory : StateM Disk (Except Failure (List String))).run disk =
        (if sources = [] then .error (.noSources directory)
          else .ok (sources.map fun name => Path.join directory name.text), disk) ∧
      (sources.map FileName.text).Pairwise (· < ·) ∧
      ∀ name, name ∈ sources ↔
        disk.IsSource here name ∧ disk.CanReach directory here name := by
  obtain ⟨names, lists, distinct, files, told⟩ := Disk.exists_names found readable
  obtain ⟨sources, same⟩ : ((names.filter isSourceName).mergeSort.filter fun text =>
      disk.isFile (Path.join directory text)) ∈ Set.range (List.map FileName.text) := by
    rw [Set.range_list_map]
    intro text inside
    exact files text (List.mem_of_mem_filter (List.mem_mergeSort.1 (List.mem_of_mem_filter inside)))
  refine ⟨sources, ?_, ?_, fun name => ?_⟩
  · have paths : ((names.filter isSourceName).mergeSort.map (Path.join directory)).filter
        disk.isFile = sources.map fun name => Path.join directory name.text := by
      have kept := congrArg (List.map (Path.join directory)) same
      rw [List.map_map] at kept
      rw [List.filter_map]
      exact kept.symm
    rw [run_discover, lists]
    dsimp only
    rw [paths]
    cases sources <;> rfl
  · rw [same]
    exact (pairwise_lt_mergeSort (distinct.filter _)).filter _
  · have member : name ∈ sources ↔ name.text ∈ sources.map FileName.text :=
      (List.mem_map_of_injective fun _ _ => FileName.ext).symm
    rw [member, same, List.mem_filter, List.mem_mergeSort, List.mem_filter, told,
      Disk.isFile_join_iff found, isSourceName_iff]
    constructor
    · rintro ⟨⟨-, stem⟩, lies, reach⟩
      exact ⟨⟨lies, stem⟩, reach⟩
    · rintro ⟨⟨⟨content, lies⟩, stem⟩, reach⟩
      refine ⟨⟨?_, stem⟩, ⟨content, lies⟩, reach⟩
      rw [lies]
      rfl

/-- Whatever the order is in which a directory tells its names, the answer is the same. -/
theorem discover_of_perm (found : disk.find directory = .ok (here, .directory))
    (readable : disk.refusal? .list here = none) (perm : other.nodes.Perm disk.nodes)
    (current : other.current = disk.current) (refusal : other.refusal? = disk.refusal?) :
    ((discover directory : StateM Disk (Except Failure (List String))).run other).1 =
      ((discover directory : StateM Disk (Except Failure (List String))).run disk).1 := by
  have same := Disk.sameOutside_of_perm perm current refusal
  obtain ⟨sources, answer, ordered, members⟩ := exists_sources found readable
  obtain ⟨sources', answer', ordered', members'⟩ :=
    exists_sources (same.find_directory found) (refusal ▸ readable)
  have reached (name : FileName) :
      other.CanReach directory here name ↔ disk.CanReach directory here name := by
    simp only [Disk.canReach_iff, refusal]
  have inside (name : FileName) : name ∈ sources' ↔ name ∈ sources := by
    rw [members', members, reached, Disk.IsSource, Disk.IsSource, Disk.node?_of_perm perm]
  have texts : sources'.map FileName.text = sources.map FileName.text := by
    refine ordered'.eq_of_mem_iff ordered fun text => ?_
    simp only [List.mem_map, inside]
  obtain rfl := List.map_injective_iff.2 (fun _ _ => FileName.ext) texts
  rw [answer, answer']

/-- A directory that may be read is told the paths of its sources that can be followed: the files
directly inside it that are named something and `.asm`, once each, in the order of the bytes of
their names. There is an error if there are none, and it does not matter in which order the
directory tells its names. -/
theorem discovered_sources (found : disk.find directory = .ok (here, .directory))
    (readable : disk.refusal? .list here = none) :
    ∃ sources : List FileName,
      (∀ name, name ∈ sources ↔
        disk.IsSource here name ∧ disk.CanReach directory here name) ∧
      sources.Pairwise (fun name later => Text.bytes name.text < Text.bytes later.text) ∧
      (∀ name ∈ sources, Step.ofPath (Path.join directory name.text) =
        Step.ofPath directory ++ [.down name]) ∧
      (discover directory : StateM Disk (Except Failure (List String))).run disk =
        (if sources = [] then .error (.noSources directory)
          else .ok (sources.map fun name => Path.join directory name.text), disk) ∧
      ∀ other : Disk, other.nodes.Perm disk.nodes → other.current = disk.current →
        other.refusal? = disk.refusal? →
          ((discover directory : StateM Disk (Except Failure (List String))).run other).1 =
            ((discover directory : StateM Disk (Except Failure (List String))).run disk).1 := by
  have named := Disk.ne_empty_of_locate (Disk.find_eq_directory_iff.1 found).1
  obtain ⟨sources, answer, ordered, members⟩ := exists_sources found readable
  refine ⟨sources, members, ?_, fun name _ => ?_, answer, fun other perm current refusal => ?_⟩
  · exact (List.pairwise_map.1 ordered).imp Text.bytes_lt_bytes
  · exact Step.ofPath_join named (Step.ofComponent?_name name)
  · exact discover_of_perm found readable perm current refusal

/-- A directory with two sources, a file that is named `.asm`, and a directory that is named like a
source and has one in it. -/
theorem discovered_sources_among_others :
    ∃ disk : Disk,
      disk.names "d" = .ok ["B.asm", ".asm", "b.asm", "x.asm"] ∧
      (discover "d" : StateM Disk (Except Failure (List String))).run disk =
        (.ok ["d/B.asm", "d/b.asm"], disk) ∧
      ∃ here, disk.find "d" = .ok (here, .directory) ∧ disk.refusal? .list here = none ∧
      ∃ sources : List FileName,
        (∀ name, name ∈ sources ↔ disk.IsSource here name ∧ disk.CanReach "d" here name) ∧
        sources.Pairwise (fun name later => Text.bytes name.text < Text.bytes later.text) ∧
        (∀ name ∈ sources, Step.ofPath (Path.join "d" name.text) =
          Step.ofPath "d" ++ [.down name]) ∧
        (discover "d" : StateM Disk (Except Failure (List String))).run disk =
          (if sources = [] then .error (.noSources "d")
            else .ok (sources.map fun name => Path.join "d" name.text), disk) ∧
        ∀ other : Disk, other.nodes.Perm disk.nodes → other.current = disk.current →
          other.refusal? = disk.refusal? →
            ((discover "d" : StateM Disk (Except Failure (List String))).run other).1 =
              ((discover "d" : StateM Disk (Except Failure (List String))).run disk).1 := by
  obtain ⟨disk, names, files, found, readable⟩ : ∃ disk : Disk,
      disk.names "d" = .ok ["B.asm", ".asm", "b.asm", "x.asm"] ∧
      ((["B.asm", ".asm", "b.asm", "x.asm"].filter isSourceName).map (Path.join "d")).filter
        disk.isFile = ["d/B.asm", "d/b.asm"] ∧
      disk.find "d" = .ok ([⟨"work", by decide⟩, ⟨"d", by decide⟩], .directory) ∧
      disk.refusal? .list [⟨"work", by decide⟩, ⟨"d", by decide⟩] = none := by
    refine ⟨(((Disk.blank.store "d/B.asm" "".toUTF8).store "d/.asm" "".toUTF8).store
      "d/b.asm" "".toUTF8).store "d/x.asm/y.asm" "".toUTF8, ?_, ?_, ?_, ?_⟩ <;> decide +kernel
  exact ⟨disk, names, run_discover_of_pairwise names (by decide +kernel) files, _, found, readable,
    discovered_sources found readable⟩

/-- Nothing is discovered in a directory whose path leaves no room for a name. -/
theorem discover_of_long_path (found : disk.find directory = .ok (here, .directory))
    (readable : disk.refusal? .list here = none)
    (long : Path.maxBytes < directory.utf8ByteSize + 5) :
    (discover directory : StateM Disk (Except Failure (List String))).run disk =
      (.error (.noSources directory), disk) := by
  obtain ⟨sources, answer, -, members⟩ := exists_sources found readable
  have none : sources = [] := by
    rw [List.eq_nil_iff_forall_not_mem]
    intro name inside
    obtain ⟨source, reach⟩ := (members name).1 inside
    have short := reach.le_maxBytes
    have named := source.le_utf8ByteSize
    omega
  rw [answer, if_pos none]

/-- The path `d` with as many slashes behind it as leave no room for a name leads to a directory
with a source in it, but the source is not discovered. -/
theorem source_overlooked :
    ∃ (disk : Disk) (here : Location) (source : FileName), source.text = "a.asm" ∧
      disk.find ("d" ++ slashes 4092) = .ok (here, .directory) ∧
      disk.refusal? .list here = none ∧ disk.IsSource here source ∧
      (discover ("d" ++ slashes 4092) : StateM Disk (Except Failure (List String))).run disk =
        (.error (.noSources ("d" ++ slashes 4092)), disk) := by
  obtain ⟨disk, found, readable, lies⟩ : ∃ disk : Disk,
      disk.find "d" = .ok ([⟨"work", by decide⟩, ⟨"d", by decide⟩], .directory) ∧
      disk.refusal? .list [⟨"work", by decide⟩, ⟨"d", by decide⟩] = none ∧
      disk.node? [⟨"work", by decide⟩, ⟨"d", by decide⟩, ⟨"a.asm", by decide⟩] =
        some (.file "@1\n".toUTF8) := by
    refine ⟨Disk.blank.store "d/a.asm" "@1\n".toUTF8, ?_, ?_, ?_⟩ <;> decide +kernel
  have one : "d".utf8ByteSize = 1 := rfl
  have size : ("d" ++ slashes 4092).utf8ByteSize = 4093 := by
    rw [String.utf8ByteSize_append, utf8ByteSize_slashes, one]
  have leads := Disk.find_append_slashes found 4092 (by rw [one]; decide)
  refine ⟨disk, _, ⟨"a.asm", by decide⟩, rfl, leads, readable, ⟨⟨_, lies⟩, "a", ?_, rfl⟩, ?_⟩
  · decide
  · exact discover_of_long_path leads readable (by rw [size]; decide)

end Build

end HackAssembler
