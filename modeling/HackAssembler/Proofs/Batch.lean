import HackAssembler.Proofs.Frame

/-!
# Builds on a disk

A build runs on a disk and leaves a disk. What one file becomes is settled by two things: what is
read under its path, and where its words may go (`ending`). The files of a directory are built one
after the other, on the disk that the files before have left. But no file writes what another one
reads or writes, so each ends as it would alone on the first disk, and the disk in the end is the
first one with the words of all files that were assembled (`run_attempts`).
-/

set_option autoImplicit false

namespace HackAssembler

/-- A computation that notices nothing. -/
def Traced.lift {ν ε α : Type} (outcome : Except ε α) : Traced ν ε α := ⟨[], outcome⟩

namespace Build

variable {mode : Mode} {disk after : Disk} {input output directory : String} {here : Location}

/-! ## One file -/

/-- The text of a source file, if it can be read and is a text. -/
def sourceText (input : String) : Except AccessError ByteArray → Except Failure String
  | .error cause => .error (.access input cause)
  | .ok bytes =>
    match String.fromUTF8? bytes with
    | some source => .ok source
    | none => .error (.access input .invalidText)

/-- How the build of a file ends, given what is read and where its words go. -/
def ending (mode : Mode) (input output : String) (read : Except AccessError ByteArray)
    (target : Except AccessError Location) : Run Listing :=
  match sourceText input read with
  | .error failure => .fail failure
  | .ok source => do
    let listing ← (assemble mode source).relabel Event.noticed (Failure.assembly input)
    let _ ← .lift (target.mapError (Failure.access output))
    .note (.assembled input output listing.size)
    return listing

/-- A build of one file on a disk, and the disk that it leaves. -/
def buildFile (mode : Mode) (disk : Disk) (input output : String) : Run Listing × Disk :=
  (assembleFile mode input output : StateM Disk (Run Listing)).run disk

/-- What a step answers in a state is passed on, with the state that it leaves. -/
theorem run_bind {σ α β : Type} {before after : σ} {step : StateM σ α} {answer : α}
    (next : α → StateM σ β) (runs : step.run before = (answer, after)) :
    (step >>= next).run before = (next answer).run after := by
  rw [StateT.run_bind, runs]
  rfl

section Stores

variable {σ : Type} [FileStore (StateM σ)] {before after : σ}

/-- What is read decides what the source is. -/
theorem run_readSource {answer : Except AccessError ByteArray}
    (reads : (FileStore.read input : StateM σ (Except AccessError ByteArray)).run before =
      (answer, after)) :
    (readSource input : StateM σ (Except Failure String)).run before =
      (sourceText input answer, after) := by
  rw [readSource, run_bind _ reads]
  cases answer with
  | error cause => rfl
  | ok bytes =>
    dsimp only [sourceText]
    cases String.fromUTF8? bytes <;> rfl

theorem run_writeListing {listing : Listing} {answer : Except AccessError Unit}
    (writes : (FileStore.write output listing.wordLines.toUTF8 :
      StateM σ (Except AccessError Unit)).run before = (answer, after)) :
    (writeListing output listing : StateM σ (Except Failure Unit)).run before =
      (answer.mapError (Failure.access output), after) := by
  rw [writeListing, run_bind _ writes]
  cases answer <;> rfl

end Stores

theorem run_write (disk : Disk) (output : String) (content : ByteArray) :
    (FileStore.write output content : StateM Disk (Except AccessError Unit)).run disk =
      match disk.target output with
      | .error cause => (.error cause, disk)
      | .ok location => (.ok (), disk.put location (.file content)) := by
  have written := disk.write_eq output content
  dsimp only [FileStore.write]
  rw [run_bind _ (rfl : (get : StateM Disk Disk).run disk = (disk, disk)), written]
  cases disk.target output <;> rfl

/-- A build of one file ends as what it reads and where it writes call for, and only changes a disk
by writing what it has assembled. -/
theorem buildFile_eq (mode : Mode) (disk : Disk) (input output : String) :
    buildFile mode disk input output =
      (ending mode input output (disk.read input) (disk.target output),
        match (ending mode input output (disk.read input) (disk.target output)).outcome,
          disk.target output with
        | .ok listing, .ok location => disk.put location (.file listing.wordLines.toUTF8)
        | _, _ => disk) := by
  have reads : (FileStore.read input : StateM Disk (Except AccessError ByteArray)).run disk =
      (disk.read input, disk) := rfl
  rw [buildFile, assembleFile, run_bind _ (run_readSource reads), ending]
  cases sourceText input (disk.read input) with
  | error failure => rfl
  | ok source =>
    dsimp only
    generalize (assemble mode source).relabel Event.noticed (Failure.assembly input) = assembly
    obtain ⟨trail, failure | listing⟩ := assembly
    · rfl
    · have writes := run_write disk output listing.wordLines.toUTF8
      cases goes : disk.target output with
      | error cause =>
        rw [goes] at writes
        dsimp only
        rw [run_bind _ (run_writeListing writes)]
        exact Prod.ext (Traced.ext (List.append_nil trail).symm rfl) rfl
      | ok location =>
        rw [goes] at writes
        dsimp only
        rw [run_bind _ (run_writeListing writes)]
        rfl

/-- What is assembled can be written. -/
theorem exists_target_of_ending {read : Except AccessError ByteArray}
    {target : Except AccessError Location} {listing : Listing}
    (assembled : (ending mode input output read target).outcome = .ok listing) :
    ∃ location, target = .ok location := by
  unfold ending at assembled
  split at assembled
  · contradiction
  · obtain ⟨_, -, assembled⟩ := Traced.bind_eq_ok_iff.1 assembled
    obtain ⟨location, goes, -⟩ := Traced.bind_eq_ok_iff.1 assembled
    cases target with
    | error cause => contradiction
    | ok location => exact ⟨location, rfl⟩

/-! ## A file of a directory -/

/-- The build of one file of a directory, as if there were no other. -/
def alone (mode : Mode) (disk : Disk) (input : String) : Run Listing × Disk :=
  buildFile mode disk input (outputPath input)

/-- What the build of one file of a directory writes, if it is assembled. -/
def written? (mode : Mode) (disk : Disk) (input : String) : Option (Location × Node) :=
  match (alone mode disk input).1.outcome, disk.target (outputPath input) with
  | .ok listing, .ok location => some (location, .file listing.wordLines.toUTF8)
  | _, _ => none

/-- What is told of a file of a directory: a failure is told, and the build goes on. -/
def report (input : String) (run : Run Listing) : List Event × Option Product :=
  match run.outcome with
  | .ok listing => (run.trail, some ⟨input, outputPath input, listing⟩)
  | .error failure => (run.trail ++ [.skipped failure], none)

variable {location : Location} {node : Node}

theorem written?_eq_some_iff :
    written? mode disk input = some (location, node) ↔
      ∃ listing, (alone mode disk input).1.outcome = .ok listing ∧
        disk.target (outputPath input) = .ok location ∧
        node = .file listing.wordLines.toUTF8 := by
  unfold written?
  constructor
  · intro written
    split at written
    · rename_i listing place assembled goes
      obtain ⟨rfl, rfl⟩ := Prod.mk.inj (Option.some.inj written)
      exact ⟨listing, assembled, goes, rfl⟩
    · contradiction
  · rintro ⟨listing, assembled, goes, rfl⟩
    rw [assembled, goes]

theorem exists_written? {listing : Listing}
    (assembled : (alone mode disk input).1.outcome = .ok listing) :
    ∃ location, written? mode disk input = some (location, .file listing.wordLines.toUTF8) := by
  have ends := assembled
  rw [alone, buildFile_eq] at ends
  obtain ⟨location, goes⟩ := exists_target_of_ending ends
  exact ⟨location, written?_eq_some_iff.2 ⟨listing, assembled, goes, rfl⟩⟩

theorem written?_eq_none {failure : Failure}
    (failed : (alone mode disk input).1.outcome = .error failure) :
    written? mode disk input = none := by
  rw [written?, failed]

/-- A disk on which the file reads and writes as on another one ends the build in the same way, and
gets the same words. -/
theorem alone_of_usedAlike (mode : Mode) (reads : disk.UsedAlike after input)
    (writes : disk.UsedAlike after (outputPath input)) :
    alone mode after input =
      ((alone mode disk input).1, after.putAll (written? mode disk input).toList) := by
  have same : (alone mode after input).1 = (alone mode disk input).1 := by
    rw [alone, alone, buildFile_eq, buildFile_eq, reads.read_eq, writes.target_eq]
  refine Prod.ext same ?_
  rw [written?, ← same, alone, buildFile_eq, writes.target_eq]
  cases (ending mode input (outputPath input) (after.read input)
    (disk.target (outputPath input))).outcome <;> cases disk.target (outputPath input) <;> rfl

theorem run_attempt (mode : Mode) (disk : Disk) (input : String) :
    (attempt mode input : StateM Disk (List Event × Option Product)).run disk =
      (report input (alone mode disk input).1, (alone mode disk input).2) := by
  have runs : (assembleFile mode input (outputPath input) : StateM Disk (Run Listing)).run disk =
      ((alone mode disk input).1, (alone mode disk input).2) := rfl
  rw [attempt, run_bind _ runs, report]
  cases (alone mode disk input).1.outcome <;> rfl

/-! ## The sources of a directory -/

/-- These are different files directly inside a directory, all named as sources. -/
structure Sources (disk : Disk) (directory : String) (here : Location) (inputs : List String) :
    Prop where
  found : disk.find directory = .ok (here, .directory)
  named : ∀ input ∈ inputs, ∃ source : FileName,
    input = Path.join directory source.text ∧ isSourceName source.text = true
  distinct : inputs.Nodup

/-- The words of a source go to a file beside it. -/
theorem location_of_target {source : FileName}
    (found : disk.find directory = .ok (here, .directory))
    (isSource : isSourceName source.text = true)
    (writes : disk.target (outputPath (Path.join directory source.text)) = .ok location) :
    ∃ output, location = here ++ [output] ∧ IsOutput source output := by
  have named := Disk.ne_empty_of_locate (Disk.find_eq_directory_iff.1 found).1
  obtain ⟨name, step, path, reads, kind⟩ := outputPath_join named isSource
  rw [path] at writes
  obtain ⟨located, ends, -⟩ := Disk.of_target writes
  rcases kind with rfl | ⟨output, rfl, out⟩
  · rw [Disk.endsWithName, Step.ofPath_join named reads, List.getLast?_concat] at ends
    contradiction
  · exact ⟨output, Disk.locate_join_eq_ok found reads located, out⟩

namespace Sources

variable {inputs done : List String} (sources : Sources disk directory here inputs)

include sources

theorem of_written? (inside : input ∈ inputs)
    (written : written? mode disk input = some (location, node)) :
    disk.node? location ≠ some .directory ∧
      ∃ source output : FileName, input = Path.join directory source.text ∧
        location = here ++ [output] ∧ IsOutput source output := by
  obtain ⟨listing, -, goes, -⟩ := written?_eq_some_iff.1 written
  obtain ⟨source, rfl, isSource⟩ := sources.named input inside
  obtain ⟨output, lies, out⟩ := location_of_target sources.found isSource goes
  exact ⟨(Disk.of_target goes).2.2, source, output, rfl, lies, out⟩

theorem sameOutside (mode : Mode) (inside : done ⊆ inputs) :
    Disk.SameOutside (· ∈ (done.filterMap (written? mode disk)).map Prod.fst) disk
      (disk.putAll (done.filterMap (written? mode disk))) := by
  apply Disk.sameOutside_putAll
  rintro ⟨location, node⟩ found
  obtain ⟨input, member, written⟩ := List.mem_filterMap.1 found
  exact (sources.of_written? (inside member) written).1

/-- No source is written over. -/
theorem usedAlike (mode : Mode) (inside : done ⊆ inputs) (member : input ∈ inputs) :
    disk.UsedAlike (disk.putAll (done.filterMap (written? mode disk))) input := by
  obtain ⟨source, rfl, isSource⟩ := sources.named input member
  apply (sources.sameOutside mode inside).usedAlike sources.found (Step.ofComponent?_name source)
  intro touched
  obtain ⟨⟨location, node⟩, found, lies⟩ := List.mem_map.1 touched
  obtain ⟨other, member', written⟩ := List.mem_filterMap.1 found
  obtain ⟨-, source', output, -, rfl, out⟩ := sources.of_written? (inside member') written
  obtain rfl : output = source := by simpa [Step.target] using lies
  exact out.ne isSource rfl

/-- No output is written by the build of another source. -/
theorem usedAlike_output (mode : Mode) (inside : done ⊆ inputs) (member : input ∈ inputs)
    (silent : input ∈ done → written? mode disk input = none) :
    disk.UsedAlike (disk.putAll (done.filterMap (written? mode disk))) (outputPath input) := by
  obtain ⟨source, rfl, isSource⟩ := sources.named input member
  have named := Disk.ne_empty_of_locate (Disk.find_eq_directory_iff.1 sources.found).1
  obtain ⟨name, step, path, reads, kind⟩ := outputPath_join named isSource
  rw [path]
  apply (sources.sameOutside mode inside).usedAlike sources.found reads
  intro touched
  obtain ⟨⟨location, node⟩, found, lies⟩ := List.mem_map.1 touched
  obtain ⟨other, member', written⟩ := List.mem_filterMap.1 found
  obtain ⟨-, source', output', rfl, rfl, out'⟩ := sources.of_written? (inside member') written
  rcases kind with rfl | ⟨output, rfl, out⟩
  · have length := congrArg List.length lies
    simp [Step.target] at length
    omega
  · obtain rfl : output' = output := by simpa [Step.target] using lies
    obtain rfl := out.unique out'
    rw [silent member'] at written
    contradiction

/-- Different sources write at different locations. -/
theorem nodup_written (mode : Mode) :
    ((inputs.filterMap (written? mode disk)).map Prod.fst).Nodup := by
  rw [List.Nodup, List.pairwise_map, List.pairwise_filterMap]
  refine sources.distinct.imp_of_mem ?_
  rintro input input' member member' different ⟨location, node⟩ written ⟨location', node'⟩ written'
    same
  obtain ⟨-, source, output, rfl, rfl, out⟩ := sources.of_written? member written
  obtain ⟨-, source', output', rfl, rfl, out'⟩ := sources.of_written? member' written'
  obtain rfl : output = output' := by simpa using same
  exact different (by rw [out.unique out'])

end Sources

/-- Every source is built as if it were alone on the first disk, whatever was built before. -/
theorem run_attempts (mode : Mode) (done : List String) {inputs : List String}
    (sources : Sources disk directory here (done ++ inputs)) :
    (inputs.mapM (attempt mode) : StateM Disk (List (List Event × Option Product))).run
        (disk.putAll (done.filterMap (written? mode disk))) =
      (inputs.map fun input => report input (alone mode disk input).1,
        disk.putAll ((done ++ inputs).filterMap (written? mode disk))) := by
  induction inputs generalizing done with
  | nil =>
    rw [List.append_nil]
    rfl
  | cons input rest ih =>
    have inside : done ⊆ done ++ input :: rest := List.subset_append_left ..
    have member : input ∈ done ++ input :: rest := by simp
    have new : input ∉ done := by
      intro found
      exact (List.nodup_append.1 sources.distinct).2.2 input found input (by simp) rfl
    have reads := sources.usedAlike mode inside member
    have writes := sources.usedAlike_output mode inside member fun found => absurd found new
    have first := run_attempt mode (disk.putAll (done.filterMap (written? mode disk))) input
    have changed : (disk.putAll (done.filterMap (written? mode disk))).putAll
        (written? mode disk input).toList =
          disk.putAll ((done ++ [input]).filterMap (written? mode disk)) := by
      rw [Disk.putAll, Disk.putAll, ← List.foldl_append, List.filterMap_append, Disk.putAll]
      congr 2
    rw [alone_of_usedAlike mode reads writes] at first
    dsimp only at first
    rw [changed] at first
    rw [List.append_cons] at sources ⊢
    rw [List.mapM_cons, run_bind _ first, run_bind _ (ih _ sources)]
    rfl

end Build

end HackAssembler
