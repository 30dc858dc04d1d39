import HackAssembler.Build
import HackAssembler.Location
import Mathlib.Data.List.Basic
import Mathlib.Data.List.Induction
import Mathlib.Data.List.TakeWhile

/-!
# Paths of files

A path is cut before its last component (`Path.Cut`). What stands in front is the way to a
directory, the last component is one move further (`Step.ofPath_of_cut`), and another extension
changes the last component only (`Path.withExtension_of_cut`).

The path of a file in a directory is the path of the directory and one move further down
(`Step.ofPath_join`). The words of a source of the directory go to a file beside it, whose name ends
differently and otherwise is the same, so different sources have different outputs, and no output is
a source. There is one name for which this fails: `..asm` turns into `..`, which names no file.
-/

set_option autoImplicit false

namespace HackAssembler

namespace Text

variable {separator c : Char} {text : List Char}

theorem splitAtEach_ne_nil (separator : Char) (text : List Char) :
    splitAtEach separator text ≠ [] := by
  unfold splitAtEach
  cases text with
  | nil => simp
  | cons c rest =>
    rw [List.foldr_cons]
    split
    · simp
    · split <;> simp

theorem splitAtEach_cons_self (separator : Char) (text : List Char) :
    splitAtEach separator (separator :: text) = [] :: splitAtEach separator text := by
  simp [splitAtEach]

theorem splitAtEach_cons_of_ne (other : c ≠ separator) {piece : List Char}
    {more : List (List Char)} (pieces : splitAtEach separator text = piece :: more) :
    splitAtEach separator (c :: text) = (c :: piece) :: more := by
  unfold splitAtEach at pieces ⊢
  rw [List.foldr_cons, if_neg other, pieces]

theorem splitAtEach_append (separator : Char) (before after : List Char) :
    splitAtEach separator (before ++ separator :: after) =
      splitAtEach separator before ++ splitAtEach separator after := by
  induction before with
  | nil => exact splitAtEach_cons_self separator after
  | cons c rest ih =>
    by_cases same : c = separator
    · subst same
      rw [List.cons_append, splitAtEach_cons_self, splitAtEach_cons_self, ih, List.cons_append]
    · obtain ⟨piece, more, pieces⟩ := List.exists_cons_of_ne_nil (splitAtEach_ne_nil separator rest)
      rw [pieces, List.cons_append] at ih
      rw [List.cons_append, splitAtEach_cons_of_ne same ih, splitAtEach_cons_of_ne same pieces,
        List.cons_append]

theorem splitAtEach_of_notMem (clean : separator ∉ text) : splitAtEach separator text = [text] := by
  induction text with
  | nil => rfl
  | cons c rest ih =>
    exact splitAtEach_cons_of_ne (Ne.symm (List.ne_of_not_mem_cons clean))
      (ih (List.not_mem_of_not_mem_cons clean))

end Text

/-! ## The last component -/

namespace Path

variable {path : String} {before last : List Char}

/-- The path is cut before its last component: what stands before it ends with a slash, unless there
is nothing. -/
structure Cut (path : String) (before last : List Char) : Prop where
  text : path.toList = before ++ last
  slash : ∀ c, before.getLast? = some c → c = '/'
  clean : '/' ∉ last

theorem exists_cut (path : String) : ∃ before last, Cut path before last := by
  suffices cut : ∀ text : List Char, ∃ before last, text = before ++ last ∧
      (∀ c, before.getLast? = some c → c = '/') ∧ '/' ∉ last by
    obtain ⟨before, last, text, slash, clean⟩ := cut path.toList
    exact ⟨before, last, text, slash, clean⟩
  intro text
  induction text using List.reverseRecOn with
  | nil => exact ⟨[], [], rfl, by simp, by simp⟩
  | append_singleton text c ih =>
    by_cases separates : c = '/'
    · exact ⟨text ++ [c], [], by simp, by simp [separates], by simp⟩
    · obtain ⟨before, last, rfl, slash, clean⟩ := ih
      exact ⟨before, last ++ [c], by simp, slash, by simp [clean, Ne.symm separates]⟩

/-- What stands before the last component is nothing, or a text and a slash. -/
theorem Cut.eq_nil_or_concat (cut : Cut path before last) :
    before = [] ∨ ∃ text, before = text ++ ['/'] := by
  cases before using List.reverseRecOn with
  | nil => exact Or.inl rfl
  | append_singleton text c =>
    obtain rfl := cut.slash c List.getLast?_concat
    exact Or.inr ⟨text, rfl⟩

end Path

/-! ## Names in a directory -/

namespace Path

variable {directory : String}

/-- The path of a directory with a slash at its end, which a name goes behind. -/
def front (directory : String) : List Char :=
  if directory.toList.getLast? = some '/' then directory.toList else directory.toList ++ ['/']

theorem toList_join (named : directory ≠ "") (name : String) :
    (join directory name).toList = front directory ++ name.toList := by
  have filled : directory.isEmpty = false := by
    rwa [Bool.eq_false_iff, ne_eq, String.isEmpty_iff]
  unfold join front
  rw [filled, Bool.false_or]
  by_cases ending : directory.toList.getLast? = some '/' <;> simp [ending]

theorem cut_join (named : directory ≠ "") {name : String} (clean : '/' ∉ name.toList) :
    Cut (join directory name) (front directory) name.toList where
  text := toList_join named name
  slash := by
    unfold front
    split
    · rename_i ending
      simp [ending]
    · simp
  clean := clean

theorem join_injective (named : directory ≠ "") : Function.Injective (join directory) := by
  intro name other same
  have chars := congrArg String.toList same
  rw [toList_join named, toList_join named, List.append_cancel_left_eq] at chars
  exact String.toList_injective chars

/-- In front of the last slash stands the path of the directory, perhaps without its last slash. -/
theorem exists_front_eq (directory : String) :
    ∃ before, front directory = before ++ ['/'] ∧
      (directory.toList = before ∨ directory.toList = before ++ ['/']) := by
  unfold front
  split
  · rename_i ending
    have whole := List.dropLast_append_getLast? '/' ending
    exact ⟨_, whole.symm, Or.inr whole.symm⟩
  · exact ⟨_, rfl, Or.inl rfl⟩

end Path

/-- A name is its text. -/
theorem FileName.ext {name other : FileName} (text : name.text = other.text) : name = other := by
  cases name
  cases other
  simp_all

namespace Step

variable {directory : String} {step : Step}

/-- The component that asks for a move. -/
def component : Step → List Char
  | stay => ['.']
  | up => ['.', '.']
  | down name => name.text.toList

theorem ofComponent?_name (name : FileName) : ofComponent? name.text.toList = some (down name) := by
  obtain ⟨text, valid⟩ := name
  have dot : text.toList ≠ ['.'] := by
    intro same
    rw [same] at valid
    exact absurd valid.1 (by decide)
  have dots : text.toList ≠ ['.', '.'] := by
    intro same
    rw [same] at valid
    exact absurd valid.1 (by decide)
  simp [ofComponent?, dot, dots, valid]

theorem ofComponent?_eq_some_iff {component : List Char} :
    ofComponent? component = some step ↔ component = step.component := by
  constructor
  · intro reads
    unfold ofComponent? at reads
    split at reads
    · rename_i dot
      rw [dot, ← Option.some.inj reads, Step.component]
    · split at reads
      · rename_i dots
        rw [dots, ← Option.some.inj reads, Step.component]
      · split at reads
        · rw [← Option.some.inj reads, Step.component, String.toList_ofList]
        · contradiction
  · rintro rfl
    cases step with
    | stay => decide
    | up => decide
    | down name => exact ofComponent?_name name

theorem slash_notMem_of_ofComponent? {component : List Char}
    (reads : ofComponent? component = some step) : '/' ∉ component := by
  rw [ofComponent?_eq_some_iff.1 reads]
  cases step with
  | stay => decide
  | up => decide
  | down name => exact name.valid.2

/-- Only an empty component asks for no move. -/
theorem eq_nil_of_ofComponent? {component : List Char} (clean : '/' ∉ component)
    (reads : ofComponent? component = none) : component = [] := by
  unfold ofComponent? at reads
  split at reads
  · contradiction
  · rename_i dot
    split at reads
    · contradiction
    · rename_i dots
      split at reads
      · contradiction
      · rename_i unnamed
        simpa [Path.isName, dot, dots, clean] using unnamed

theorem ofComponent?_nil : ofComponent? [] = none := by decide

/-- The last component is one move more. -/
theorem ofPath_of_cut {path : String} {before last : List Char} (cut : Path.Cut path before last) :
    ofPath path = ofPath (String.ofList before) ++ (ofComponent? last).toList := by
  have single : [last].filterMap ofComponent? = (ofComponent? last).toList := by
    cases reads : ofComponent? last <;> simp [reads]
  rw [ofPath, ofPath, cut.text, String.toList_ofList]
  rcases cut.eq_nil_or_concat with rfl | ⟨text, rfl⟩
  · rw [List.nil_append, Text.splitAtEach_of_notMem cut.clean, single]
    rfl
  · rw [List.append_assoc, List.singleton_append, Text.splitAtEach_append,
      Text.splitAtEach_append, List.filterMap_append, List.filterMap_append,
      Text.splitAtEach_of_notMem cut.clean, single]
    simp [Text.splitAtEach, ofComponent?_nil]

theorem ofPath_join (named : directory ≠ "") {name : String}
    (reads : ofComponent? name.toList = some step) :
    ofPath (Path.join directory name) = ofPath directory ++ [step] := by
  have cut := Path.cut_join named (slash_notMem_of_ofComponent? reads)
  obtain ⟨text, front, same⟩ := Path.exists_front_eq directory
  have directoryMoves : ofPath (String.ofList (Path.front directory)) = ofPath directory := by
    rw [ofPath, ofPath, String.toList_ofList, front, Text.splitAtEach_append]
    rcases same with same | same
    · simp [same, Text.splitAtEach, ofComponent?_nil]
    · rw [same, Text.splitAtEach_append]
  rw [ofPath_of_cut cut, directoryMoves, reads, Option.toList_some]

end Step

/-! ## Outputs -/

namespace Path

variable {path : String} {before last : List Char}

theorem splitExtension_eq_some {name stem extension : List Char}
    (cut : splitExtension name = some (stem, extension)) :
    name = stem ++ '.' :: extension ∧ stem ≠ [] := by
  unfold splitExtension at cut
  split at cut
  · rename_i mark c rest found
    obtain ⟨rfl, rfl⟩ := Prod.mk.inj (Option.some.inj cut)
    have dot : mark = '.' := by
      have stop := List.head?_dropWhile_not (· != '.') name.reverse
      rw [found] at stop
      simpa using stop
    have whole : name.reverse.takeWhile (· != '.') ++ name.reverse.dropWhile (· != '.') =
        name.reverse := List.takeWhile_append_dropWhile
    rw [found, dot] at whole
    refine ⟨(List.reverse_eq_iff.1 whole.symm).trans ?_, by simp⟩
    simp
  · contradiction

/-- What is neither empty nor a dot is not cut at the end of a path. -/
theorem dropTrailing_of_clean {name : List Char} (filled : name ≠ []) (dot : name ≠ ['.'])
    (clean : '/' ∉ name) (more : List Char) :
    dropTrailing (name.reverse ++ more) = name.reverse ++ more := by
  have plain : ∀ c ∈ name.reverse, c ≠ '/' := by
    rintro c found rfl
    exact clean (List.mem_reverse.1 found)
  have dot : name.reverse ≠ ['.'] := by
    intro same
    exact dot (List.reverse_eq_iff.1 same)
  have filled : name.reverse ≠ [] := by simpa using filled
  generalize name.reverse = back at plain dot filled
  unfold dropTrailing
  split
  · rename_i start
    obtain ⟨c, rest, rfl⟩ := List.exists_cons_of_ne_nil filled
    exact absurd (List.cons.inj start).1 (plain c List.mem_cons_self)
  · rename_i start
    obtain ⟨c, rest, rfl⟩ := List.exists_cons_of_ne_nil filled
    obtain ⟨rfl, behind⟩ := List.cons.inj start
    cases rest with
    | nil => exact absurd rfl dot
    | cons next others => exact absurd (List.cons.inj behind).1 (plain next (by simp))
  · rfl

theorem parts_of_cut (cut : Cut path before last) (filled : last ≠ []) (dot : last ≠ ['.']) :
    parts path.toList = ⟨before, last, false⟩ := by
  have plain : ∀ c ∈ last.reverse, (c != '/') = true := by
    intro c found
    rw [bne_iff_ne]
    rintro rfl
    exact cut.clean (List.mem_reverse.1 found)
  have body : dropTrailing path.toList.reverse = last.reverse ++ before.reverse := by
    rw [cut.text, List.reverse_append, dropTrailing_of_clean filled dot cut.clean]
  have stop : before.reverse.takeWhile (· != '/') = [] ∧
      before.reverse.dropWhile (· != '/') = before.reverse := by
    rcases cut.eq_nil_or_concat with rfl | ⟨text, rfl⟩ <;> simp
  have length : (last.reverse ++ before.reverse).length = path.toList.length := by
    rw [cut.text]
    simp only [List.length_append, List.length_reverse]
    omega
  rw [parts, body, List.dropWhile_append_of_pos plain, List.takeWhile_append_of_pos plain, stop.1,
    stop.2, length]
  simp

/-- A file name with its extension replaced or added; what would be `.` and an extension is `..`. -/
def renamed (extension name : List Char) : List Char :=
  match splitExtension name with
  | none => name ++ '.' :: extension
  | some (stem, _) => if stem = ['.'] then ['.', '.'] else stem ++ '.' :: extension

/-- Another extension changes the last component, if it is a name. -/
theorem withExtension_of_cut (cut : Cut path before last) (valid : isName last = true)
    (extension : String) :
    withExtension extension path = String.ofList (before ++ renamed extension.toList last) := by
  have filled : last ≠ [] := by
    rintro rfl
    contradiction
  have dot : last ≠ ['.'] := by
    rintro rfl
    contradiction
  rw [withExtension, parts_of_cut cut filled dot]
  dsimp only
  rw [if_pos valid, renamed]
  cases splitExtension last with
  | none => simp
  | some pair =>
    obtain ⟨stem, old⟩ := pair
    by_cases dot : stem = ['.'] <;> simp [dot]

theorem Cut.withExtension (cut : Cut path before last) (valid : isName last = true)
    {extension : String} {other : List Char} (renames : renamed extension.toList last = other)
    (clean : '/' ∉ other) : Cut (withExtension extension path) before other where
  text := by rw [withExtension_of_cut cut valid, String.toList_ofList, renames]
  slash := cut.slash
  clean := clean

/-- A path that ends with a move up is left alone. -/
theorem withExtension_of_cut_up (cut : Cut path before ['.', '.']) (extension : String) :
    withExtension extension path = path := by
  rw [withExtension, parts_of_cut cut (by decide) (by decide)]
  rfl

/-- Only a name that has an extension keeps its text when it gets that extension. -/
theorem renamed_ne {name extension : String} (valid : isName name.toList = true)
    (other : extension? name ≠ some extension) :
    renamed extension.toList name.toList ≠ name.toList := by
  intro same
  unfold renamed at same
  split at same
  · simp at same
  · rename_i stem old cut
    obtain ⟨text, -⟩ := splitExtension_eq_some cut
    split at same
    · rw [← same] at valid
      contradiction
    · rw [text, List.append_cancel_left_eq, List.cons.injEq] at same
      apply other
      rw [extension?, cut, Option.map_some, ← same.2, String.ofList_toList]

theorem renamed_eq_self {name extension : String} (same : extension? name = some extension)
    (leads : renamed extension.toList name.toList ≠ ['.', '.']) :
    renamed extension.toList name.toList = name.toList := by
  obtain ⟨⟨stem, old⟩, cut, rfl⟩ := Option.map_eq_some_iff.1 same
  obtain ⟨text, -⟩ := splitExtension_eq_some cut
  simp only [renamed, cut] at leads ⊢
  split
  · rename_i dot
    exact absurd (if_pos dot) leads
  · rw [text, String.toList_ofList]

theorem withExtension_join {directory : String} (named : directory ≠ "") (name : FileName)
    {stem old : List Char} (cut : splitExtension name.text.toList = some (stem, old))
    (extension : String) :
    withExtension extension (join directory name.text) =
      join directory (if stem = ['.'] then ".." else String.ofList stem ++ "." ++ extension) := by
  rw [withExtension_of_cut (cut_join named name.valid.2) name.valid.1, renamed, cut]
  apply String.toList_injective
  rw [toList_join named, String.toList_ofList]
  by_cases dot : stem = ['.'] <;> simp [dot]

end Path

namespace Build

/-- The output lies beside the source: the names differ only after the last dot. -/
def IsOutput (source output : FileName) : Prop :=
  ∃ stem, source.text = stem ++ ".asm" ∧ output.text = stem ++ ".hack"

variable {source source' output : FileName} {directory : String}

/-- Sources with one output are the same. -/
theorem IsOutput.unique (out : IsOutput source output) (out' : IsOutput source' output) :
    source = source' := by
  obtain ⟨stem, named, text⟩ := out
  obtain ⟨stem', named', text'⟩ := out'
  rw [text, String.append_left_inj] at text'
  exact FileName.ext (by rw [named, named', text'])

theorem exists_stem_of_isSourceName {name : String} (source : isSourceName name = true) :
    ∃ stem, Path.splitExtension name.toList = some (stem, "asm".toList) := by
  have extension : Path.extension? name = some "asm" := by
    simpa [isSourceName, sourceExtension] using source
  obtain ⟨⟨stem, old⟩, cut, text⟩ := Option.map_eq_some_iff.1 extension
  rw [← text, String.toList_ofList]
  exact ⟨stem, cut⟩

theorem text_of_isSourceName {name : String} (source : isSourceName name = true) :
    ∃ stem, stem ≠ "" ∧ name = stem ++ ".asm" := by
  obtain ⟨stem, cut⟩ := exists_stem_of_isSourceName source
  obtain ⟨text, filled⟩ := Path.splitExtension_eq_some cut
  refine ⟨String.ofList stem, by simpa using filled, ?_⟩
  apply String.toList_injective
  simp [text]

/-- An output is no source. -/
theorem IsOutput.ne (out : IsOutput source output) (named : isSourceName source'.text = true) :
    source' ≠ output := by
  rintro rfl
  obtain ⟨stem, -, text⟩ := out
  obtain ⟨stem', -, text'⟩ := text_of_isSourceName named
  have last := congrArg (·.toList.getLast?) (text.symm.trans text')
  simp at last

/-- Another extension leaves a file a name, whatever stands before it. -/
theorem isName_hack {stem : List Char} (clean : '/' ∉ stem) :
    Path.isName (stem ++ ".hack".toList) = true ∧ '/' ∉ stem ++ ".hack".toList := by
  have long (other : List Char) (short : other.length < 5) : stem ++ ".hack".toList ≠ other := by
    rintro rfl
    have five : ".hack".toList.length = 5 := by decide
    rw [List.length_append] at short
    omega
  constructor
  · simp only [Path.isName, Bool.and_eq_true, bne_iff_ne]
    exact ⟨⟨long [] (by decide), long ['.'] (by decide)⟩, long ['.', '.'] (by decide)⟩
  · simpa using clean

/-- The output extension turns every name into a name again, but for one that leads up. -/
theorem renamed_outputExtension {name : List Char} (clean : '/' ∉ name) :
    Path.renamed outputExtension.toList name = ['.', '.'] ∨
      ∃ output : FileName, output.text.toList = Path.renamed outputExtension.toList name := by
  have isName {stem : List Char} (clean : '/' ∉ stem) :
      ∃ output : FileName, output.text.toList = stem ++ '.' :: outputExtension.toList := by
    have valid : Path.isName (String.ofList (stem ++ ".hack".toList)).toList = true ∧
        '/' ∉ (String.ofList (stem ++ ".hack".toList)).toList := by
      rw [String.toList_ofList]
      exact isName_hack clean
    exact ⟨⟨_, valid⟩, String.toList_ofList⟩
  unfold Path.renamed
  split
  · exact Or.inr (isName clean)
  · rename_i stem old cut
    obtain ⟨rfl, -⟩ := Path.splitExtension_eq_some cut
    split
    · exact Or.inl rfl
    · exact Or.inr (isName fun found => clean (List.mem_append_left _ found))

/-- The output of a source of a directory is a file beside it, unless its name leads up. -/
theorem outputPath_join (named : directory ≠ "") (isSource : isSourceName source.text = true) :
    ∃ name step, outputPath (Path.join directory source.text) = Path.join directory name ∧
      Step.ofComponent? name.toList = some step ∧
      (step = .up ∨ ∃ output, step = .down output ∧ IsOutput source output) := by
  obtain ⟨stem, cut⟩ := exists_stem_of_isSourceName isSource
  have text := (Path.splitExtension_eq_some cut).1
  have path := Path.withExtension_join named source cut outputExtension
  by_cases dot : stem = ['.']
  · rw [if_pos dot] at path
    exact ⟨"..", .up, path, by decide, Or.inl rfl⟩
  · have clean : '/' ∉ stem := by
      intro found
      apply source.valid.2
      rw [text]
      exact List.mem_append_left _ found
    have chars : (String.ofList stem ++ "." ++ outputExtension).toList =
        stem ++ ".hack".toList := by
      simp [outputExtension]
    have valid := isName_hack clean
    rw [← chars] at valid
    rw [if_neg dot] at path
    refine ⟨_, _, path, Step.ofComponent?_name ⟨_, valid⟩, Or.inr ⟨_, rfl, String.ofList stem, ?_⟩⟩
    constructor
    · apply String.toList_injective
      simp [text]
    · apply String.toList_injective
      simp [chars]

end Build

end HackAssembler
