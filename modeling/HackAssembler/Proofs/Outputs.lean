import HackAssembler.Proofs.Directory

/-!
# Outputs of the sources of a directory

The sources that are discovered in a directory are paths of the directory and a name that ends with
`.asm`. The words of each go to the same directory, under a name with the same stem that ends with
`.hack`. So no two sources share an output, and no output is a source, however the directory is
spelled (`outputs_of_discovered`). The name `..asm` is the exception to the rule: its output is
`..`, which is not in the directory, but is no output of another source and no source either.

All that is asked of the file store is that a directory tells the names of what is in it, each once;
links may lead anywhere.
-/

set_option autoImplicit false

namespace HackAssembler

/-! ## Directories that tell their names -/

/-- A file system in which a directory tells names that files can have, and none of them twice; and
in which the empty path leads to no directory. -/
class TellsNames (σ : Type) [FileStore (StateM σ)] : Prop where
  told : ∀ {before after : σ} {directory : String} {names : List String},
    (FileStore.names directory : StateM σ (Except AccessError (List String))).run before =
      (.ok names, after) →
    directory ≠ "" ∧ (∀ name ∈ names, ∃ file : FileName, name = file.text) ∧ names.Nodup

instance : TellsNames Disk where
  told {before after directory names} tells := by
    have lists : before.names directory = .ok names := congrArg Prod.fst tells
    obtain ⟨here, found, files, distinct⟩ := Disk.of_names lists
    exact ⟨Disk.ne_empty_of_locate (Disk.find_eq_directory_iff.1 found).1, files, distinct⟩

/-- What is kept of a list, one check after the other, stands in the order of the list. -/
theorem sublist_of_filterM {σ α : Type} {check : α → StateM σ Bool} {list kept : List α}
    {before after : σ} (checks : (list.filterM check).run before = (kept, after)) :
    kept.Sublist list := by
  have collected (list back : List α) (state : σ) :
      ∃ kept : List α, kept.Sublist list ∧
        ((list.filterAuxM check back).run state).1 = kept.reverse ++ back := by
    induction list generalizing back state with
    | nil => exact ⟨[], .slnil, rfl⟩
    | cons a rest ih =>
      rcases answer : (check a).run state with ⟨holds, next⟩
      rw [List.filterAuxM, Build.run_bind _ answer]
      cases holds with
      | false =>
        obtain ⟨kept, among, same⟩ := ih back next
        exact ⟨kept, among.cons a, same⟩
      | true =>
        obtain ⟨kept, among, same⟩ := ih (a :: back) next
        exact ⟨a :: kept, among.cons_cons a, by simpa using same⟩
  obtain ⟨collection, among, same⟩ := collected list [] before
  have whole : ((list.filterAuxM check []).run before).1.reverse = kept := congrArg Prod.fst checks
  rw [same, List.append_nil, List.reverse_reverse] at whole
  rwa [← whole]

/-! ## Names of sources and outputs -/

theorem Path.splitExtension_append {stem extension : List Char} (filled : stem ≠ [])
    (clean : '.' ∉ extension) :
    splitExtension (stem ++ '.' :: extension) = some (stem, extension) := by
  have plain : ∀ c ∈ extension.reverse, (c != '.') = true := by
    intro c found
    rw [bne_iff_ne]
    rintro rfl
    exact clean (List.mem_reverse.1 found)
  have back : (stem ++ '.' :: extension).reverse = extension.reverse ++ '.' :: stem.reverse := by
    simp
  obtain ⟨c, rest, first⟩ := List.exists_cons_of_ne_nil (List.reverse_ne_nil_iff.2 filled)
  rw [splitExtension, back, List.dropWhile_append_of_pos plain, List.takeWhile_append_of_pos plain,
    List.dropWhile_cons_of_neg (by decide), List.takeWhile_cons_of_neg (by decide), first]
  simp [← first]

namespace Build

variable {directory stem stem' : String} {source : FileName}

theorem splitExtension_source (filled : stem ≠ "") :
    Path.splitExtension (stem ++ ".asm").toList = some (stem.toList, "asm".toList) := by
  rw [String.toList_append]
  exact Path.splitExtension_append (by simpa using filled) (by decide)

/-- A name is that of a source if it ends with `.asm` and something stands before that. -/
theorem isSourceName_iff {name : String} :
    isSourceName name = true ↔ ∃ stem, stem ≠ "" ∧ name = stem ++ ".asm" := by
  constructor
  · exact text_of_isSourceName
  · rintro ⟨stem, filled, rfl⟩
    rw [isSourceName, Path.extension?, splitExtension_source filled, Option.map_some,
      String.ofList_toList]
    exact beq_self_eq_true _

/-- The name at the end of the output of a source. -/
def outputName (stem : String) : String := if stem = "." then ".." else stem ++ ".hack"

theorem outputName_inj (same : outputName stem = outputName stem') : stem = stem' := by
  have longer (stem : String) : stem ++ ".hack" ≠ ".." := by
    intro same
    have last := congrArg (·.toList.getLast?) same
    simp at last
  unfold outputName at same
  split at same
  · rename_i dot
    split at same
    · rename_i dot'
      rw [dot, dot']
    · exact absurd same.symm (longer stem')
  · split at same
    · exact absurd same (longer stem)
    · exact String.append_left_inj _ |>.1 same

/-- No output ends like a source. -/
theorem outputName_ne (stem stem' : String) : outputName stem ≠ stem' ++ ".asm" := by
  intro same
  have last := congrArg (·.toList.getLast?) same
  unfold outputName at last
  split at last <;> simp at last

theorem outputPath_join_source (named : directory ≠ "") (filled : stem ≠ "")
    (text : source.text = stem ++ ".asm") :
    outputPath (Path.join directory source.text) = Path.join directory (outputName stem) := by
  have cut : Path.splitExtension source.text.toList = some (stem.toList, "asm".toList) := by
    rw [text, splitExtension_source filled]
  have dot : stem.toList = ['.'] ↔ stem = "." := by
    rw [← String.toList_inj]
    rfl
  have whole : stem ++ "." ++ "hack" = stem ++ ".hack" := String.append_assoc ..
  rw [outputPath, Path.withExtension_join named source cut, String.ofList_toList, outputName]
  simp only [dot, outputExtension, whole]

/-- An output is one move away from the directory, and the move tells its name. -/
theorem exists_step_outputPath (named : directory ≠ "") (filled : stem ≠ "")
    (text : source.text = stem ++ ".asm") :
    ∃ step : Step, step.component = (outputName stem).toList ∧
      Step.ofPath (outputPath (Path.join directory source.text)) =
        Step.ofPath directory ++ [step] := by
  have reads : ∃ step, Step.ofComponent? (outputName stem).toList = some step := by
    unfold outputName
    split
    · exact ⟨.up, by decide⟩
    · have clean : '/' ∉ stem.toList := by
        intro found
        apply source.valid.2
        rw [text, String.toList_append]
        exact List.mem_append_left _ found
      have valid := isName_hack clean
      rw [← String.toList_append] at valid
      exact ⟨_, Step.ofComponent?_name ⟨stem ++ ".hack", valid⟩⟩
  obtain ⟨step, reads⟩ := reads
  refine ⟨step, (Step.ofComponent?_eq_some_iff.1 reads).symm, ?_⟩
  rw [outputPath_join_source named filled text, Step.ofPath_join named reads]

/-! ## Discovered sources -/

/-- What is discovered in a directory are the paths of different sources. -/
theorem of_discover {σ : Type} [FileStore (StateM σ)] [TellsNames σ] {before after : σ}
    {inputs : List String}
    (found : (discover directory : StateM σ (Except Failure (List String))).run before =
      (.ok inputs, after)) :
    directory ≠ "" ∧ inputs.Nodup ∧
      ∀ input ∈ inputs, ∃ (source : FileName) (stem : String), stem ≠ "" ∧
        source.text = stem ++ ".asm" ∧ input = Path.join directory source.text := by
  rcases tells : (FileStore.names directory :
    StateM σ (Except AccessError (List String))).run before with ⟨answer, between⟩
  rw [discover, run_bind _ tells] at found
  cases answer with
  | error cause =>
    have failed : (.error (.access directory cause) : Except Failure (List String)) =
        .ok inputs := congrArg Prod.fst found
    contradiction
  | ok names =>
    obtain ⟨named, files, distinct⟩ := TellsNames.told tells
    dsimp only at found
    rcases checks : (((names.filter isSourceName).mergeSort.map (Path.join directory)).filterM
      fun path => (FileStore.isFile path : StateM σ Bool)).run between with ⟨kept, last⟩
    rw [run_bind _ checks] at found
    have answers := congrArg Prod.fst found
    replace answers : (if kept.isEmpty then .error (.noSources directory) else .ok kept :
      Except Failure (List String)) = .ok inputs := answers
    split at answers
    · contradiction
    · obtain rfl := Except.ok.inj answers
      have among := sublist_of_filterM checks
      refine ⟨named, ?_, ?_⟩
      · refine List.Nodup.sublist among (List.Nodup.map (Path.join_injective named) ?_)
        exact (List.mergeSort_perm _ _).nodup_iff.2 (distinct.filter _)
      · intro input inside
        obtain ⟨name, member, rfl⟩ := List.mem_map.1 (among.subset inside)
        obtain ⟨listed, isSource⟩ := List.mem_filter.1 (List.mem_mergeSort.1 member)
        obtain ⟨source, rfl⟩ := files name listed
        obtain ⟨stem, filled, text⟩ := isSourceName_iff.1 isSource
        exact ⟨source, stem, filled, text, rfl⟩

/-- Every source that is discovered in a directory has its output in the same directory, under the
same stem; only `..asm` has not, and its output is `..`. Different sources have different outputs,
and no output is a source, even if a file may be reached by paths that are spelled differently. -/
theorem outputs_of_discovered {σ : Type} [FileStore (StateM σ)] [TellsNames σ] {before after : σ}
    {inputs : List String}
    (found : (discover directory : StateM σ (Except Failure (List String))).run before =
      (.ok inputs, after)) :
    (∀ input ∈ inputs, ∃ stem, stem ≠ "" ∧ input = Path.join directory (stem ++ ".asm") ∧
      (stem ≠ "." → outputPath input = Path.join directory (stem ++ ".hack")) ∧
      (stem = "." → outputPath input = Path.join directory "..")) ∧
    (inputs.map fun input => Step.ofPath (outputPath input)).Nodup ∧
    ∀ input ∈ inputs, ∀ other ∈ inputs, Step.ofPath (outputPath input) ≠ Step.ofPath other := by
  obtain ⟨named, distinct, sources⟩ := of_discover found
  refine ⟨?_, ?_, ?_⟩
  · intro input inside
    obtain ⟨source, stem, filled, text, rfl⟩ := sources input inside
    have path := outputPath_join_source named filled text
    refine ⟨stem, filled, by rw [text], fun other => ?_, fun dot => ?_⟩
    · rw [path, outputName, if_neg other]
    · rw [path, outputName, if_pos dot]
  · rw [List.Nodup, List.pairwise_map]
    refine distinct.imp_of_mem ?_
    intro input input' inside inside' different same
    obtain ⟨source, stem, filled, text, rfl⟩ := sources input inside
    obtain ⟨source', stem', filled', text', rfl⟩ := sources input' inside'
    obtain ⟨step, tells, way⟩ := exists_step_outputPath named filled text
    obtain ⟨step', tells', way'⟩ := exists_step_outputPath named filled' text'
    rw [way, way', List.append_cancel_left_eq, List.singleton_inj] at same
    rw [← same, tells, String.toList_inj] at tells'
    exact different (by rw [text, text', outputName_inj tells'])
  · intro input inside other inside' same
    obtain ⟨source, stem, filled, text, rfl⟩ := sources input inside
    obtain ⟨source', stem', filled', text', rfl⟩ := sources other inside'
    obtain ⟨step, tells, way⟩ := exists_step_outputPath named filled text
    rw [way, Step.ofPath_join named (Step.ofComponent?_name source'), List.append_cancel_left_eq,
      List.singleton_inj] at same
    rw [same, Step.component, String.toList_inj, text'] at tells
    exact outputName_ne stem stem' tells.symm

/-- If the sources that a directory tells are in order, they are discovered as they are told. -/
theorem run_discover_of_pairwise {disk : Disk} {names : List String}
    (lists : disk.names directory = .ok names)
    (ordered : (names.filter isSourceName).Pairwise fun name later => decide (name ≤ later))
    {first : String} {rest : List String}
    (files : ((names.filter isSourceName).map (Path.join directory)).filter disk.isFile =
      first :: rest) :
    (discover directory : StateM Disk (Except Failure (List String))).run disk =
      (.ok (first :: rest), disk) := by
  rw [run_discover, lists]
  dsimp only
  rw [List.mergeSort_of_pairwise ordered, files]
  rfl

/-- The stem is cut at the last dot. -/
theorem outputs_of_discovered_dot_in_stem :
    ∃ disk : Disk,
      (discover "d" : StateM Disk (Except Failure (List String))).run disk =
        (.ok ["d/a.asm", "d/a.b.asm"], disk) ∧
      (∀ input ∈ ["d/a.asm", "d/a.b.asm"], ∃ stem, stem ≠ "" ∧
        input = Path.join "d" (stem ++ ".asm") ∧
        (stem ≠ "." → outputPath input = Path.join "d" (stem ++ ".hack")) ∧
        (stem = "." → outputPath input = Path.join "d" "..")) ∧
      (["d/a.asm", "d/a.b.asm"].map fun input => Step.ofPath (outputPath input)).Nodup ∧
      ∀ input ∈ ["d/a.asm", "d/a.b.asm"], ∀ other ∈ ["d/a.asm", "d/a.b.asm"],
        Step.ofPath (outputPath input) ≠ Step.ofPath other := by
  have found : (discover "d" : StateM Disk (Except Failure (List String))).run
      ((Disk.blank.store "d/a.asm" "".toUTF8).store "d/a.b.asm" "".toUTF8) =
        (.ok ["d/a.asm", "d/a.b.asm"],
          (Disk.blank.store "d/a.asm" "".toUTF8).store "d/a.b.asm" "".toUTF8) := by
    have names : ((Disk.blank.store "d/a.asm" "".toUTF8).store "d/a.b.asm" "".toUTF8).names "d" =
        .ok ["a.asm", "a.b.asm"] := by
      decide +kernel
    exact run_discover_of_pairwise names (by decide +kernel) (by decide +kernel)
  exact ⟨_, found, outputs_of_discovered found⟩

/-- A source that is named `..asm` is discovered, and its output is not in the directory. -/
theorem output_of_two_dots_outside :
    ∃ disk : Disk,
      (discover "d" : StateM Disk (Except Failure (List String))).run disk =
        (.ok [Path.join "d" ("." ++ ".asm")], disk) ∧
      outputPath (Path.join "d" ("." ++ ".asm")) = Path.join "d" ".." ∧
      outputPath (Path.join "d" ("." ++ ".asm")) ≠ Path.join "d" ("." ++ ".hack") := by
  have names : (Disk.blank.store "d/..asm" "".toUTF8).names "d" = .ok ["..asm"] := by
    decide +kernel
  refine ⟨Disk.blank.store "d/..asm" "".toUTF8, ?_, by decide +kernel, by decide +kernel⟩
  exact run_discover_of_pairwise names (by decide +kernel) (by decide +kernel)

end Build

end HackAssembler
