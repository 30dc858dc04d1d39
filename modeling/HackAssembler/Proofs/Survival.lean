import HackAssembler.Proofs.Batch

/-!
# What becomes of the source

The words of a single file go to a file beside it, whose name has another extension. So the source
is as it was, whatever the build comes to, unless it has the extension of an output itself
(`Build.source_kept`). A file with that extension is its own output: if it is assembled, its words
take its place.
-/

set_option autoImplicit false

namespace HackAssembler

/-- The extension of the name of what lies at a location. -/
def extensionAt (location : Location) : Option String :=
  location.getLast?.bind fun name => Path.extension? name.text

namespace Build

variable {mode : Mode} {disk : Disk} {input : String} {location place : Location}
  {content : ByteArray}

/-! ## The places of a source and its output -/

/-- A source and its output lie side by side, and the output is named after the source. -/
theorem exists_names_of_target (found : disk.find input = .ok (location, .file content))
    (writes : disk.target (outputPath input) = .ok place) :
    ∃ (here : Location) (name output : FileName), location = here ++ [name] ∧
      place = here ++ [output] ∧
      output.text.toList = Path.renamed outputExtension.toList name.text.toList := by
  obtain ⟨before, last, cut⟩ := Path.exists_cut input
  obtain ⟨located, seen, plain⟩ := Disk.find_eq_file_iff.1 found
  obtain ⟨located', ends, -⟩ := Disk.of_target writes
  cases reads : Step.ofComponent? last with
  | none =>
    -- A path that is empty or ends with a slash does not lead to a file.
    obtain rfl := Step.eq_nil_of_ofComponent? cut.clean reads
    have text : input.toList = before := by simpa using cut.text
    rcases cut.eq_nil_or_concat with rfl | ⟨front, rfl⟩
    · exact absurd (String.toList_eq_nil_iff.1 text) (Disk.ne_empty_of_locate located)
    · rw [Disk.endsWithSlash, text, List.getLast?_concat] at plain
      exact absurd plain (by decide)
  | some step =>
    obtain ⟨here, moves, directory, rfl⟩ := Disk.locate_of_cut cut reads located
    obtain rfl := Step.ofComponent?_eq_some_iff.1 reads
    cases step with
    | stay => exact Node.noConfusion (Except.ok.inj (directory.symm.trans seen))
    | up =>
      rw [outputPath, Path.withExtension_of_cut_up cut, Disk.endsWithName,
        Step.ofPath_of_cut cut, reads, Option.toList_some, List.getLast?_concat] at ends
      exact absurd ends Bool.false_ne_true
    | down name =>
      have named : Path.Cut input before name.text.toList := cut
      rcases renamed_outputExtension name.valid.2 with up | ⟨output, text⟩
      · have cut' := named.withExtension name.valid.1 up (by decide)
        have reads' : Step.ofComponent? ['.', '.'] = some .up := by decide
        rw [outputPath, Disk.endsWithName, Step.ofPath_of_cut cut', reads', Option.toList_some,
          List.getLast?_concat] at ends
        exact absurd ends Bool.false_ne_true
      · have cut' := named.withExtension name.valid.1 text.symm output.valid.2
        have reads' := Step.ofComponent?_name output
        obtain ⟨here', moves', -, rfl⟩ := Disk.locate_of_cut cut' reads' located'
        obtain rfl : here = here' := Except.ok.inj (moves.symm.trans moves')
        exact ⟨here, name, output, rfl, rfl, text⟩

/-! ## The disk in the end -/

/-- A file that is not written is found as before. -/
theorem find_put_of_ne (found : disk.find input = .ok (location, .file content))
    (free : disk.node? place ≠ some .directory) (other : location ≠ place) (node : Node) :
    (disk.put place node).find input = .ok (location, .file content) := by
  obtain ⟨located, seen, plain⟩ := Disk.find_eq_file_iff.1 found
  have same := Disk.sameOutside_put free node
  rw [Disk.find_eq_file_iff, Disk.look_congr (same.node location other)]
  exact ⟨same.locate_eq_ok located, seen, plain⟩

/-- A file that is written is found with its new content. -/
theorem find_put_self (found : disk.find input = .ok (location, .file content))
    (words : ByteArray) :
    (disk.put location (.file words)).find input = .ok (location, .file words) := by
  obtain ⟨located, seen, plain⟩ := Disk.find_eq_file_iff.1 found
  obtain ⟨short, lies⟩ := Disk.look_eq_ok_iff.1 seen
  have free : disk.node? location ≠ some .directory := by
    rw [lies]
    exact fun same => Node.noConfusion (Option.some.inj same)
  have root : location ≠ [] := by
    rintro rfl
    exact free rfl
  have same := Disk.sameOutside_put free (.file words)
  rw [Disk.find_eq_file_iff, Disk.look_eq_ok_iff, Disk.node?_put root, if_pos rfl]
  exact ⟨same.locate_eq_ok located, ⟨short, rfl⟩, plain⟩

/-- A single file is built as if it were alone. -/
theorem run_assemblePath_file (mode : Mode)
    (found : disk.find input = .ok (location, .file content)) :
    (assemblePath mode input none : StateM Disk (Run (List Product))).run disk =
      ((fun listing => [⟨input, outputPath input, listing⟩]) <$> (alone mode disk input).1,
        (alone mode disk input).2) := by
  have isDirectory : (FileStore.isDirectory input : StateM Disk Bool).run disk =
      (false, disk) := by
    show (disk.isDirectory input, disk) = (false, disk)
    rw [Disk.isDirectory, found]
  have runs : (assembleFile mode input (outputPath input) : StateM Disk (Run Listing)).run disk =
      ((alone mode disk input).1, (alone mode disk input).2) := rfl
  unfold assemblePath
  rw [run_bind _ isDirectory, if_neg Bool.false_ne_true]
  dsimp only [Option.getD_none]
  rw [run_bind _ runs]
  rfl

/-- The disk after the build of one file has what the build writes, and nothing else is new. -/
theorem alone_eq (mode : Mode) (disk : Disk) (input : String) :
    (alone mode disk input).2 = disk.putAll (written? mode disk input).toList :=
  congrArg Prod.snd (alone_of_usedAlike mode ⟨rfl, rfl, fun _ _ => rfl⟩ ⟨rfl, rfl, fun _ _ => rfl⟩)

theorem extensionAt_concat (here : Location) (name : FileName) :
    extensionAt (here ++ [name]) = Path.extension? name.text := by
  rw [extensionAt, List.getLast?_concat, Option.bind_some]

/-- What a file without the output extension holds is still there, whatever the build of the file
comes to. -/
theorem find_alone_of_ne (mode : Mode) (found : disk.find input = .ok (location, .file content))
    (other : extensionAt location ≠ some outputExtension) :
    (alone mode disk input).2.find input = .ok (location, .file content) := by
  rw [alone_eq]
  cases written : written? mode disk input with
  | none => exact found
  | some change =>
    obtain ⟨listing, -, goes, -⟩ := written?_eq_some_iff.1 written
    obtain ⟨here, name, output, rfl, place, text⟩ := exists_names_of_target found goes
    apply find_put_of_ne found (Disk.of_target goes).2.2
    rw [place]
    intro same
    obtain rfl : name = output := by simpa using same
    rw [extensionAt_concat] at other
    exact Path.renamed_ne name.valid.1 other text.symm

/-- A file with the output extension is its own output. -/
theorem find_alone_of_eq (found : disk.find input = .ok (location, .file content))
    (own : extensionAt location = some outputExtension) {listing : Listing}
    (assembled : (alone mode disk input).1.outcome = .ok listing) :
    (alone mode disk input).2.find input =
      .ok (location, .file listing.wordLines.toUTF8) := by
  obtain ⟨place, written⟩ := exists_written? assembled
  obtain ⟨-, -, goes, -⟩ := written?_eq_some_iff.1 written
  obtain ⟨here, name, output, rfl, rfl, text⟩ := exists_names_of_target found goes
  have leads : Path.renamed outputExtension.toList name.text.toList ≠ ['.', '.'] := by
    intro up
    have valid := output.valid.1
    rw [text, up] at valid
    exact absurd valid (by decide)
  rw [extensionAt_concat] at own
  obtain rfl : output = name :=
    FileName.ext (String.toList_inj.1 (text.trans (Path.renamed_eq_self own leads)))
  rw [alone_eq, written]
  exact find_put_self found _

/-- A build of a single file with the output beside it leaves the source as it was, unless the
source has the extension of an output. Such a source is as it was if the build fails, and gives way
to its words otherwise. -/
theorem source_kept (mode : Mode) (found : disk.find input = .ok (location, .file content)) :
    let built := (assemblePath mode input none : StateM Disk (Run (List Product))).run disk
    (extensionAt location ≠ some outputExtension →
      built.2.find input = .ok (location, .file content)) ∧
    (∀ failure, built.1.outcome = .error failure → built.2 = disk) ∧
    (extensionAt location = some outputExtension → ∀ products, built.1.outcome = .ok products →
      ∃ listing, products = [⟨input, outputPath input, listing⟩] ∧
        built.2.find input = .ok (location, .file listing.wordLines.toUTF8)) := by
  rw [run_assemblePath_file mode found]
  refine ⟨find_alone_of_ne mode found, ?_, ?_⟩
  · intro failure failed
    cases outcome : (alone mode disk input).1.outcome with
    | error reason =>
      show (alone mode disk input).2 = disk
      rw [alone_eq, written?_eq_none outcome]
      rfl
    | ok listing =>
      rw [map_eq_pure_bind, Traced.bind_of_ok _ outcome] at failed
      exact nomatch failed
  · intro own products done
    rw [map_eq_pure_bind, Traced.bind_eq_ok_iff] at done
    obtain ⟨listing, assembled, same⟩ := done
    exact ⟨listing, (Except.ok.inj same).symm, find_alone_of_eq found own assembled⟩

/-- A source without an extension gets an output that has one. -/
theorem source_kept_without_extension :
    ∃ disk location,
      Disk.find disk "d/Prog" = .ok (location, .file "@1\nD=A".toUTF8) ∧
      ((assemblePath .strict "d/Prog" none : StateM Disk (Run (List Product))).run disk).2.find
        "d/Prog" = .ok (location, .file "@1\nD=A".toUTF8) := by
  have found : (Disk.blank.store "d/Prog" "@1\nD=A".toUTF8).find "d/Prog" =
      .ok ([⟨"work", by decide⟩, ⟨"d", by decide⟩, ⟨"Prog", by decide⟩],
        .file "@1\nD=A".toUTF8) := by
    decide +kernel
  exact ⟨_, _, found, (source_kept .strict found).1 (by decide +kernel)⟩

/-- A source that is named as an output is written over. -/
theorem source_named_as_output_lost :
    ∃ disk location,
      Disk.find disk "x.hack" = .ok (location, .file "@1\n".toUTF8) ∧
      ((assemblePath .lenient "x.hack" none : StateM Disk (Run (List Product))).run disk).2.find
        "x.hack" = .ok (location, .file "0000000000000001\n".toUTF8) ∧
      "0000000000000001\n".toUTF8 ≠ "@1\n".toUTF8 :=
  ⟨Disk.blank.store "x.hack" "@1\n".toUTF8, [⟨"work", by decide⟩, ⟨"x.hack", by decide⟩],
    by decide +kernel, by decide +kernel, by decide +kernel⟩

end Build

end HackAssembler
