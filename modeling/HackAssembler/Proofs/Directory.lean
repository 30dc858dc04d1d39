import HackAssembler.Proofs.Batch
import Mathlib.Data.List.Nodup

/-!
# A directory is built file by file

Building a directory amounts to building each of its sources alone on the disk as it was
(`FileByFile`). The words of a source that is assembled alone are found at its output afterwards,
and nothing else on the disk has changed. The build is complete if no source fails alone, and
otherwise tells how many do; and at the level of information its log has one record for each source,
in order.
-/

set_option autoImplicit false

namespace HackAssembler.Build

variable {mode : Mode} {disk after : Disk} {input output directory : String} {here : Location}
  {inputs : List String}

/-! ## Finding the sources -/

/-- Checking each member on a disk leaves the disk alone. -/
theorem run_filterM {α : Type} {check : α → StateM Disk Bool} {holds : α → Bool}
    (checks : ∀ a, (check a).run disk = (holds a, disk)) (list : List α) :
    (list.filterM check).run disk = (list.filter holds, disk) := by
  have collected (kept : List α) : (list.filterAuxM check kept).run disk =
      ((list.filter holds).reverse ++ kept, disk) := by
    induction list generalizing kept with
    | nil => rfl
    | cons a rest ih =>
      rw [List.filterAuxM, run_bind _ (checks a), ih]
      cases found : holds a <;> simp [found]
  rw [List.filterM, run_bind _ (collected []), List.append_nil]
  exact congrArg (·, disk) (List.reverse_reverse _)

theorem run_discover (disk : Disk) (directory : String) :
    (discover directory : StateM Disk (Except Failure (List String))).run disk =
      (match disk.names directory with
        | .error cause => .error (.access directory cause)
        | .ok names =>
          let sources := ((names.filter isSourceName).mergeSort.map (Path.join directory)).filter
            disk.isFile
          if sources.isEmpty then .error (.noSources directory) else .ok sources, disk) := by
  have names : (FileStore.names directory :
      StateM Disk (Except AccessError (List String))).run disk = (disk.names directory, disk) := rfl
  have checks (path : String) :
      (FileStore.isFile path : StateM Disk Bool).run disk = (disk.isFile path, disk) := rfl
  rw [discover, run_bind _ names]
  cases disk.names directory with
  | error cause => rfl
  | ok names =>
    dsimp only
    rw [run_bind _ (run_filterM checks _)]
    rfl

theorem sources_of_discover
    (found : ((discover directory : StateM Disk (Except Failure (List String))).run disk).1 =
      .ok inputs) :
    ∃ here, Sources disk directory here inputs := by
  rw [run_discover] at found
  cases lists : disk.names directory with
  | error cause =>
    rw [lists] at found
    contradiction
  | ok names =>
    rw [lists] at found
    dsimp only at found
    split at found
    · contradiction
    · obtain rfl := Except.ok.inj found
      obtain ⟨here, stands, files, distinct⟩ := Disk.of_names lists
      have named := Disk.ne_empty_of_locate (Disk.find_eq_directory_iff.1 stands).1
      refine ⟨here, stands, ?_, ?_⟩
      · intro input inside
        obtain ⟨name, member, rfl⟩ := List.mem_map.1 (List.mem_of_mem_filter inside)
        obtain ⟨listed, isSource⟩ := List.mem_filter.1 (List.mem_mergeSort.1 member)
        obtain ⟨file, rfl⟩ := files name listed
        exact ⟨file, rfl, isSource⟩
      · refine List.Nodup.filter _ (List.Nodup.map (Path.join_injective named) ?_)
        exact (List.mergeSort_perm _ _).nodup_iff.2 (distinct.filter _)

/-! ## The whole directory -/

/-- What closes the build of a source in the log. -/
def closing (input : String) (run : Run Listing) : Event :=
  match run.outcome with
  | .ok listing => .assembled input (outputPath input) listing.size
  | .error failure => .skipped failure

/-- Whether a source fails when it is built alone. -/
def failsAlone (mode : Mode) (disk : Disk) (input : String) : Bool :=
  !(alone mode disk input).1.outcome.isOk

/-- A run over sources, from one disk to another, that amounts to building each source alone on the
first disk. -/
structure FileByFile (mode : Mode) (disk : Disk) (inputs : List String)
    (run : Run (List Product)) (after : Disk) : Prop where
  /-- The words of a source that is assembled alone lie at its output. -/
  output : ∀ input ∈ inputs, ∀ listing, (alone mode disk input).1.outcome = .ok listing →
    ∃ location, disk.locate (outputPath input) = .ok location ∧
      after.locate (outputPath input) = .ok location ∧
      after.node? location = some (.file listing.wordLines.toUTF8)
  /-- Nothing else is changed. -/
  elsewhere : ∀ location,
    (∀ input ∈ inputs, failsAlone mode disk input = false →
      disk.locate (outputPath input) ≠ .ok location) →
    after.node? location = disk.node? location
  setting : after.current = disk.current ∧ after.refusal? = disk.refusal?
  input : ∀ input ∈ inputs, after.find input = disk.find input
  failed : ∀ input ∈ inputs, failsAlone mode disk input = true →
    after.find (outputPath input) = disk.find (outputPath input)
  complete : (∀ input ∈ inputs, failsAlone mode disk input = false) →
    ∃ products, run.outcome = .ok products ∧
      List.Forall₂ (fun input product => product.input = input ∧
        product.output = outputPath input ∧
        (alone mode disk input).1.outcome = .ok product.listing) inputs products
  incomplete : (∃ input ∈ inputs, failsAlone mode disk input = true) →
    run.outcome = .error (.incomplete (inputs.countP (failsAlone mode disk)) inputs.length)
  trail : run.trail = inputs.flatMap fun input => (report input (alone mode disk input).1).1
  /-- Apart from the warnings there is one record for each source at the level of information. -/
  records : (Record.admitted .info (run.trail.map Event.record)).filter
    (fun record => record.severity != .warn) =
      inputs.map fun input => (closing input (alone mode disk input).1).record

theorem failsAlone_eq_true_iff :
    failsAlone mode disk input = true ↔
      ∃ failure, (alone mode disk input).1.outcome = .error failure := by
  unfold failsAlone
  cases (alone mode disk input).1.outcome <;> simp [Except.isOk, Except.toBool]

theorem failsAlone_eq_false_iff :
    failsAlone mode disk input = false ↔
      ∃ listing, (alone mode disk input).1.outcome = .ok listing := by
  unfold failsAlone
  cases (alone mode disk input).1.outcome <;> simp [Except.isOk, Except.toBool]

theorem trail_ending (mode : Mode) (input output : String) (read : Except AccessError ByteArray)
    (target : Except AccessError Location) :
    ∃ notices : List Notice, (ending mode input output read target).trail =
      notices.map Event.noticed ++
        match (ending mode input output read target).outcome with
        | .ok listing => [.assembled input output listing.size]
        | .error _ => [] := by
  unfold ending
  cases sourceText input read with
  | error failure => exact ⟨[], rfl⟩
  | ok source =>
    refine ⟨(assemble mode source).trail, ?_⟩
    dsimp only [Traced.relabel]
    generalize (assemble mode source).trail = notices
    cases (assemble mode source).outcome with
    | error fault => exact (List.append_nil _).symm
    | ok listing =>
      cases target with
      | error cause => rfl
      | ok location => rfl

/-- The assembly of a source has its say, and then its build is closed. -/
theorem trail_report (mode : Mode) (disk : Disk) (input : String) :
    ∃ notices : List Notice, (report input (alone mode disk input).1).1 =
      notices.map Event.noticed ++ [closing input (alone mode disk input).1] := by
  obtain ⟨notices, trail⟩ := trail_ending mode input (outputPath input) (disk.read input)
    (disk.target (outputPath input))
  refine ⟨notices, ?_⟩
  rw [report, closing, alone, buildFile_eq]
  dsimp only
  cases outcome : (ending mode input (outputPath input) (disk.read input)
    (disk.target (outputPath input))).outcome with
  | ok listing => rw [trail, outcome]
  | error failure => rw [trail, outcome, List.append_nil]

/-- The records that are let through at the level of information and are no warnings. -/
def tellingRecords (events : List Event) : List Record :=
  (Record.admitted .info (events.map Event.record)).filter fun record => record.severity != .warn

theorem tellingRecords_append (events more : List Event) :
    tellingRecords (events ++ more) = tellingRecords events ++ tellingRecords more := by
  simp [tellingRecords, Record.admitted]

/-- An assembly only warns, or says what is not let through. -/
theorem tellingRecords_noticed (notices : List Notice) :
    tellingRecords (notices.map Event.noticed) = [] := by
  rw [tellingRecords, Record.admitted, List.filter_filter, List.filter_eq_nil_iff]
  intro record found
  obtain ⟨event, member, rfl⟩ := List.mem_map.1 found
  obtain ⟨notice, -, rfl⟩ := List.mem_map.1 member
  have severity : notice.severity = .debug ∨ notice.severity = .warn := by
    cases notice <;> simp [Notice.severity]
  rcases severity with debug | warn
  · simp [Event.record, Notice.record, debug, Severity.admits, Severity.rank]
  · simp [Event.record, Notice.record, warn]

theorem tellingRecords_report (mode : Mode) (disk : Disk) (input : String) :
    tellingRecords (report input (alone mode disk input).1).1 =
      [(closing input (alone mode disk input).1).record] := by
  obtain ⟨notices, trail⟩ := trail_report mode disk input
  rw [trail, tellingRecords_append, tellingRecords_noticed, List.nil_append, closing]
  cases (alone mode disk input).1.outcome <;> rfl

theorem tellingRecords_flatMap (mode : Mode) (disk : Disk) (inputs : List String) :
    tellingRecords (inputs.flatMap fun input => (report input (alone mode disk input).1).1) =
      inputs.map fun input => (closing input (alone mode disk input).1).record := by
  induction inputs with
  | nil => rfl
  | cons input rest ih =>
    rw [List.flatMap_cons, tellingRecords_append, tellingRecords_report, ih, List.map_cons,
      List.singleton_append]

/-! ## Products and outputs -/

/-- What is missing among the products is what failed. -/
theorem length_sub_length_products (mode : Mode) (disk : Disk) (inputs : List String) :
    inputs.length - (inputs.filterMap fun input =>
      (report input (alone mode disk input).1).2).length =
        inputs.countP (failsAlone mode disk) := by
  have kept (input : String) : (report input (alone mode disk input).1).2.isSome =
      !failsAlone mode disk input := by
    unfold report failsAlone
    cases (alone mode disk input).1.outcome <;> rfl
  have total := List.length_eq_countP_add_countP (failsAlone mode disk) (l := inputs)
  rw [List.length_filterMap_eq_countP]
  simp only [kept]
  simp only [Bool.not_eq_true, Bool.decide_eq_false] at total
  omega

/-- All sources of a directory are built as if each were alone, and the failures are counted. -/
theorem run_assembleAll (mode : Mode) (sources : Sources disk directory here inputs) :
    (assembleAll mode inputs : StateM Disk (Run (List Product))).run disk =
      (⟨inputs.flatMap fun input => (report input (alone mode disk input).1).1,
        if inputs.countP (failsAlone mode disk) = 0 then
          .ok (inputs.filterMap fun input => (report input (alone mode disk input).1).2)
        else .error (.incomplete (inputs.countP (failsAlone mode disk)) inputs.length)⟩,
        disk.putAll (inputs.filterMap (written? mode disk))) := by
  have attempts : (inputs.mapM (attempt mode) :
      StateM Disk (List (List Event × Option Product))).run disk =
        (inputs.map fun input => report input (alone mode disk input).1,
          disk.putAll (inputs.filterMap (written? mode disk))) :=
    run_attempts mode [] sources
  rw [assembleAll, run_bind _ attempts, ← length_sub_length_products]
  simp only [List.flatMap_map, List.filterMap_map]
  rfl

theorem forall₂_products
    (all : ∀ input ∈ inputs, failsAlone mode disk input = false) :
    List.Forall₂ (fun input product => product.input = input ∧ product.output = outputPath input ∧
        (alone mode disk input).1.outcome = .ok product.listing) inputs
      (inputs.filterMap fun input => (report input (alone mode disk input).1).2) := by
  induction inputs with
  | nil => exact .nil
  | cons input rest ih =>
    obtain ⟨listing, assembled⟩ := failsAlone_eq_false_iff.1 (all input List.mem_cons_self)
    have product : (report input (alone mode disk input).1).2 =
        some ⟨input, outputPath input, listing⟩ := by
      rw [report, assembled]
    rw [List.filterMap_cons, product]
    have later := ih fun other found => all other (List.mem_cons_of_mem _ found)
    exact .cons ⟨rfl, rfl, assembled⟩ later

/-- The words of a source that is assembled alone are found at its output in the end. -/
theorem Sources.node?_output (sources : Sources disk directory here inputs)
    (inside : input ∈ inputs) {listing : Listing}
    (assembled : (alone mode disk input).1.outcome = .ok listing) :
    ∃ location, disk.locate (outputPath input) = .ok location ∧
      (disk.putAll (inputs.filterMap (written? mode disk))).locate (outputPath input) =
        .ok location ∧
      (disk.putAll (inputs.filterMap (written? mode disk))).node? location =
        some (.file listing.wordLines.toUTF8) := by
  have proper (change : Location × Node)
      (found : change ∈ inputs.filterMap (written? mode disk)) : change.1 ≠ [] := by
    obtain ⟨input, -, written⟩ := List.mem_filterMap.1 found
    obtain ⟨listing, -, goes, -⟩ := written?_eq_some_iff.1 written
    exact Disk.ne_root_of_target goes
  obtain ⟨location, written⟩ := exists_written? assembled
  obtain ⟨-, -, goes, -⟩ := written?_eq_some_iff.1 written
  have located := (Disk.of_target goes).1
  have same := sources.sameOutside mode (List.Subset.refl inputs)
  have found := List.mem_filterMap.2 ⟨input, inside, written⟩
  exact ⟨location, located, same.locate_eq_ok located,
    Disk.node?_putAll_of_mem proper (sources.nodup_written mode) found⟩

/-- What is no output of a source that is assembled alone is the same in the end. -/
theorem Sources.node?_elsewhere (sources : Sources disk directory here inputs)
    {location : Location}
    (other : ∀ input ∈ inputs, failsAlone mode disk input = false →
      disk.locate (outputPath input) ≠ .ok location) :
    (disk.putAll (inputs.filterMap (written? mode disk))).node? location =
      disk.node? location := by
  apply (sources.sameOutside mode (List.Subset.refl inputs)).node
  intro touched
  obtain ⟨⟨_, node⟩, found, rfl⟩ := List.mem_map.1 touched
  obtain ⟨input, inside, written⟩ := List.mem_filterMap.1 found
  obtain ⟨listing, assembled, goes, -⟩ := written?_eq_some_iff.1 written
  exact other input inside (failsAlone_eq_false_iff.2 ⟨listing, assembled⟩)
    (Disk.of_target goes).1

/-! ## Results -/

theorem fileByFile_assembleAll (mode : Mode) (sources : Sources disk directory here inputs) :
    FileByFile mode disk inputs ((assembleAll mode inputs : StateM Disk _).run disk).1
      ((assembleAll mode inputs : StateM Disk _).run disk).2 := by
  rw [run_assembleAll mode sources]
  exact {
    output := fun input inside listing assembled => sources.node?_output inside assembled
    elsewhere := fun location other => sources.node?_elsewhere other
    setting := Disk.putAll_setting disk _
    input := fun input inside =>
      (sources.usedAlike mode (List.Subset.refl inputs) inside).find_eq
    failed := by
      intro input inside fails
      obtain ⟨failure, failed⟩ := failsAlone_eq_true_iff.1 fails
      exact (sources.usedAlike_output mode (List.Subset.refl inputs) inside fun _ =>
        written?_eq_none failed).find_eq
    complete := by
      intro all
      have zero : inputs.countP (failsAlone mode disk) = 0 := by
        rw [List.countP_eq_zero]
        intro input inside
        rw [all input inside]
        exact Bool.false_ne_true
      exact ⟨_, if_pos zero, forall₂_products all⟩
    incomplete := by
      rintro ⟨input, inside, fails⟩
      have positive : inputs.countP (failsAlone mode disk) ≠ 0 := by
        intro zero
        exact List.countP_eq_zero.1 zero input inside fails
      exact if_neg positive
    trail := rfl
    records := tellingRecords_flatMap mode disk inputs }

/-- A directory in which sources are found is built as if each of them were built alone on the disk
as it is. -/
theorem directory_built_file_by_file (mode : Mode)
    (found : ((discover directory : StateM Disk (Except Failure (List String))).run disk).1 =
      .ok inputs) :
    FileByFile mode disk inputs
      ((assemblePath mode directory none : StateM Disk (Run (List Product))).run disk).1
      ((assemblePath mode directory none : StateM Disk (Run (List Product))).run disk).2 := by
  obtain ⟨here, sources⟩ := sources_of_discover found
  have isDirectory : (FileStore.isDirectory directory : StateM Disk Bool).run disk =
      (true, disk) := by
    show (disk.isDirectory directory, disk) = (true, disk)
    rw [Disk.isDirectory, sources.found]
  have lists : (discover directory : StateM Disk (Except Failure (List String))).run disk =
      (.ok inputs, disk) := by
    rw [run_discover] at found ⊢
    rw [← found]
  have whole : (assemblePath mode directory none : StateM Disk (Run (List Product))).run disk =
      (assembleAll mode inputs : StateM Disk (Run (List Product))).run disk := by
    rw [assemblePath, run_bind _ isDirectory, if_pos rfl, run_bind _ lists]
  rw [whole]
  exact fileByFile_assembleAll mode sources

/-- One source is assembled and one is not. -/
theorem directory_built_file_by_file_one_fails :
    ∃ disk : Disk,
      ((discover "d" : StateM Disk (Except Failure (List String))).run disk).1 =
        .ok ["d/a.asm", "d/b.asm"] ∧
      FileByFile .strict disk ["d/a.asm", "d/b.asm"]
        ((assemblePath .strict "d" none : StateM Disk (Run (List Product))).run disk).1
        ((assemblePath .strict "d" none : StateM Disk (Run (List Product))).run disk).2 ∧
      ((assemblePath .strict "d" none : StateM Disk (Run (List Product))).run disk).1.outcome =
        .error (.incomplete 1 2) := by
  have found : ((discover "d" : StateM Disk (Except Failure (List String))).run
      ((Disk.blank.store "d/a.asm" "@i".toUTF8).store "d/b.asm" "D=X".toUTF8)).1 =
        .ok ["d/a.asm", "d/b.asm"] := by
    have names : ((Disk.blank.store "d/a.asm" "@i".toUTF8).store "d/b.asm" "D=X".toUTF8).names "d" =
        .ok ["a.asm", "b.asm"] := by
      decide +kernel
    have sorted : (["a.asm", "b.asm"].filter isSourceName).mergeSort = ["a.asm", "b.asm"] :=
      List.mergeSort_of_pairwise (by decide +kernel)
    rw [run_discover, names]
    dsimp only
    rw [sorted]
    decide +kernel
  have built := directory_built_file_by_file .strict found
  have fails : failsAlone .strict
      ((Disk.blank.store "d/a.asm" "@i".toUTF8).store "d/b.asm" "D=X".toUTF8) "d/b.asm" = true := by
    decide +kernel
  have count : ["d/a.asm", "d/b.asm"].countP (failsAlone .strict
      ((Disk.blank.store "d/a.asm" "@i".toUTF8).store "d/b.asm" "D=X".toUTF8)) = 1 := by
    decide +kernel
  have outcome := built.incomplete ⟨"d/b.asm", by decide, fails⟩
  rw [count] at outcome
  exact ⟨_, found, built, outcome⟩

end HackAssembler.Build
