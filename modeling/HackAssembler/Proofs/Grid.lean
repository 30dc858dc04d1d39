import HackAssembler.Proofs.Decoding
import HackAssembler.Proofs.Reference

/-!
# A grid tells its listing

The grid of a listing has one line for each entry, and the line ends with the word of the entry, as
the file of words has it (`forall₂_lines_grid`). How many spaces stand between two cells depends on
all entries, and a source may hold spaces, arrows and digits of its own. But it never starts or ends
with a blank and never holds a line feed, so between the address in front and the arrow and the word
behind it can be told from the spaces around it: whatever their numbers are, the row has one source
only (`Entry.IsRow.unique`). The address is the number of the line. So two listings with one grid
have the same addresses, sources and words.
-/

set_option autoImplicit false

namespace HackAssembler

open Text

/-! ## Rows -/

/-- Some spaces, and at least one. -/
def gap (more : Nat) : List Char := List.replicate (more + 1) ' '

theorem eq_space_of_mem_gap {more : Nat} {c : Char} (found : c ∈ gap more) : c = ' ' :=
  List.eq_of_mem_replicate found

theorem isBlank_of_mem_gap {more : Nat} : ∀ c ∈ gap more, isBlank c = true := by
  intro c found
  rw [eq_space_of_mem_gap found]
  decide

/-- The line has the cells of the entry, with some spaces between them. -/
def Entry.IsRow (entry : Entry) (line : List Char) : Prop :=
  ∃ first second third, line =
    (hexText entry.address ++ ":").toList ++ (gap first ++ entry.source.toList ++ gap second ++
      "=>".toList ++ gap third ++ entry.instruction.text.toList)

theorem Grid.pad_append_space (columns : Nat) (cell rest : List Char) :
    Grid.pad columns cell ++ ' ' :: rest = cell ++ gap (columns - width cell) ++ rest := by
  rw [Grid.pad, gap, List.replicate_succ', List.append_assoc, List.append_assoc, List.append_assoc,
    List.singleton_append]

theorem exists_renderRow_cells (columns : List Nat) (entry : Entry) :
    ∃ line, entry.IsRow line ∧
      Grid.renderRow columns (entry.cells.map String.toList) = line ++ ['\n'] := by
  refine ⟨_, ⟨columns.headD 0 - width (hexText entry.address ++ ":").toList,
    columns.tail.headD 0 - width entry.source.toList,
    columns.tail.tail.headD 0 - width "=>".toList, rfl⟩, ?_⟩
  simp only [Entry.cells, List.map_cons, List.map_nil, Grid.renderRow, Grid.pad_append_space,
    List.append_assoc]

theorem exists_toList_grid (listing : Listing) :
    ∃ rows, List.Forall₂ Entry.IsRow listing.entries rows ∧
      listing.grid.toList = rows.flatMap (· ++ ['\n']) := by
  rw [Listing.grid, String.toList_ofList, Grid.render]
  generalize Grid.columnWidths (listing.entries.map fun entry => entry.cells.map String.toList) =
    columns
  induction listing.entries with
  | nil => exact ⟨[], .nil, rfl⟩
  | cons entry rest ih =>
    obtain ⟨line, row, rendered⟩ := exists_renderRow_cells columns entry
    obtain ⟨lines, rows, whole⟩ := ih
    refine ⟨line :: lines, .cons row rows, ?_⟩
    rw [List.map_cons, List.flatMap_cons, rendered, whole, List.flatMap_cons]

/-! ## Cells -/

/-- What a line says without its comment and its outer blanks: no blank at the ends, no line
feed, and not nothing. -/
structure IsStripped (text : List Char) : Prop where
  trimmed : trim text = text
  filled : text ≠ []
  feed : '\n' ∉ text

theorem isStripped_of_mem_strippedLines {source : String} {text : Located (List Char)}
    (found : text ∈ strippedLines source) : IsStripped text.item := by
  obtain ⟨line, inside, stripped, filled⟩ := Statement.mem_saidFrom_iff.1 found
  refine ⟨?_, filled, ?_⟩
  · rw [← stripped, Statement.strip, trim_trim]
  · rw [← stripped]
    intro feed
    exact feed_notMem_of_mem_lines (List.fst_mem_of_mem_zipIdx inside)
      (Statement.mem_of_mem_strip feed)

/-- The spaces in front of the source and behind the arrow are told from what stands between. -/
theorem IsStripped.trim_gaps {text : List Char} (stripped : IsStripped text)
    (first second third : Nat) :
    trim (gap first ++ text ++ gap second ++ "=>".toList ++ gap third) =
      text ++ gap second ++ "=>".toList := by
  have grouped : gap first ++ text ++ gap second ++ "=>".toList ++ gap third =
      gap first ++ (text ++ gap second ++ "=>".toList) ++ gap third := by
    simp only [List.append_assoc]
  rw [grouped, trim_append_blanks isBlank_of_mem_gap isBlank_of_mem_gap]
  apply trim_eq_self_of_ends
  · intro c head
    rw [List.append_assoc, List.head?_append_of_ne_nil _ stripped.filled,
      ← stripped.trimmed] at head
    exact isBlank_of_head?_trim head
  · intro c last
    have arrow : (text ++ gap second ++ "=>".toList).getLast? = some '>' := by
      rw [List.getLast?_append]
      rfl
    obtain rfl : '>' = c := Option.some.inj (arrow.symm.trans last)
    decide

/-- Spaces behind a stripped text are told from it. -/
theorem IsStripped.eq_of_gap {text text' : List Char} (stripped : IsStripped text)
    (stripped' : IsStripped text') {after after' : Nat}
    (same : text ++ gap after = text' ++ gap after') : text = text' := by
  have none : ∀ c ∈ ([] : List Char), isBlank c = true := fun _ found => nomatch found
  have left : trim ([] ++ text ++ gap after) = trim text :=
    trim_append_blanks none isBlank_of_mem_gap text
  have right : trim ([] ++ text' ++ gap after') = trim text' :=
    trim_append_blanks none isBlank_of_mem_gap text'
  rw [List.nil_append] at left right
  rw [← stripped.trimmed, ← stripped'.trimmed, ← left, ← right, same]

/-- A row has one source and one word. -/
theorem Entry.IsRow.unique {entry entry' : Entry} {line : List Char} (row : entry.IsRow line)
    (row' : entry'.IsRow line) (stripped : IsStripped entry.source.toList)
    (stripped' : IsStripped entry'.source.toList) (address : entry.address = entry'.address) :
    entry.source = entry'.source ∧ entry.instruction.text = entry'.instruction.text := by
  obtain ⟨first, second, third, shape⟩ := row
  obtain ⟨first', second', third', shape'⟩ := row'
  have same := shape.symm.trans shape'
  rw [address, List.append_cancel_left_eq] at same
  have width : entry.instruction.text.toList.length = entry'.instruction.text.toList.length := by
    rw [Instruction.text, Word.length_text, Instruction.text, Word.length_text]
  obtain ⟨front, word⟩ := List.append_inj' same width
  have trimmed := congrArg trim front
  rw [stripped.trim_gaps, stripped'.trim_gaps, List.append_cancel_right_eq] at trimmed
  exact ⟨String.toList_inj.1 (stripped.eq_of_gap stripped' trimmed), String.toList_inj.1 word⟩

/-! ## Lines -/

theorem exists_digit_of_mem_toDigits {base n : Nat} {c : Char} (large : 1 < base)
    (found : c ∈ Nat.toDigits base n) : ∃ digit < base, c = Nat.digitChar digit := by
  induction n using Nat.strongRecOn with
  | ind n ih =>
    rw [Nat.toDigits_eq_if large] at found
    split at found
    · rename_i small
      exact ⟨n, small, List.mem_singleton.1 found⟩
    · rename_i big
      rcases List.mem_append.1 found with higher | last
      · exact ih (n / base) (Nat.div_lt_self (by omega) large) higher
      · exact ⟨n % base, Nat.mod_lt n (by omega), List.mem_singleton.1 last⟩

/-- A number in hexadecimal holds its mark and digits in upper case only. -/
theorem notMem_hexText {c : Char} (mark : c ≠ 'x')
    (digits : ∀ digit < 16, (Nat.digitChar digit).toUpper ≠ c) (n : Nat) :
    c ∉ (hexText n).toList := by
  have zero : '0' ≠ c := digits 0 (by decide)
  intro found
  simp only [hexText, String.toList_append, String.toList_ofList, hexDigits, List.mem_append,
    List.mem_map] at found
  rcases found with front | filled | ⟨c', found, rfl⟩
  · have front : c = '0' ∨ c = 'x' := by simpa using front
    exact front.elim zero.symm mark
  · exact zero (List.eq_of_mem_replicate filled).symm
  · obtain ⟨digit, small, rfl⟩ := exists_digit_of_mem_toDigits (by decide) found
    exact digits digit small rfl

theorem feed_notMem_hexText (n : Nat) : '\n' ∉ (hexText n).toList :=
  notMem_hexText (by decide) (by decide) n

theorem feed_notMem_gap (more : Nat) : '\n' ∉ gap more := fun feed =>
  absurd (eq_space_of_mem_gap feed) (by decide)

theorem Word.feed_notMem_text (word : Word) : '\n' ∉ word.text.toList := fun feed =>
  absurd (eq_of_mem_text feed) (by decide)

theorem Word.getLast?_text_ne (word : Word) : word.text.toList.getLast? ≠ some '\r' := fun last =>
  absurd (eq_of_mem_text (List.mem_of_getLast? last)) (by decide)

namespace Entry.IsRow

variable {entry : Entry} {line : List Char}

/-- A row ends with the word. -/
theorem suffix (row : entry.IsRow line) : entry.instruction.text.toList <:+ line := by
  obtain ⟨first, second, third, shape⟩ := row
  rw [shape]
  exact (List.suffix_append _ _).trans (List.suffix_append _ _)

theorem feed_notMem (row : entry.IsRow line) (stripped : IsStripped entry.source.toList) :
    '\n' ∉ line := by
  obtain ⟨first, second, third, shape⟩ := row
  have colon : '\n' ∉ (hexText entry.address ++ ":").toList := by
    rw [String.toList_append, List.mem_append, not_or]
    exact ⟨feed_notMem_hexText _, by decide⟩
  have arrow : '\n' ∉ "=>".toList := by decide
  rw [shape]
  simp only [List.mem_append, not_or]
  exact ⟨colon, ⟨⟨⟨⟨feed_notMem_gap _, stripped.feed⟩, feed_notMem_gap _⟩, arrow⟩,
    feed_notMem_gap _⟩, Word.feed_notMem_text _⟩

theorem getLast?_ne (row : entry.IsRow line) : line.getLast? ≠ some '\r' := by
  obtain ⟨front, rfl⟩ := row.suffix
  have filled : entry.instruction.text.toList ≠ [] := by
    rw [Instruction.text, ← List.length_pos_iff, Word.length_text]
    decide
  rw [List.getLast?_append_of_ne_nil _ filled]
  exact Word.getLast?_text_ne _

end Entry.IsRow

/-! ## Listings -/

namespace Listing

variable {listing listing' : Listing}

theorem toList_wordLines (listing : Listing) :
    listing.wordLines.toList = (listing.words.map String.toList).flatMap (· ++ ['\n']) := by
  rw [wordLines, String.toList_join, List.flatMap_map, List.flatMap_map]
  simp only [String.toList_append]
  rfl

/-- The words are the lines of the text that is made of them. -/
theorem lines_wordLines (listing : Listing) :
    lines listing.wordLines.toList = listing.words.map String.toList := by
  have isWord : ∀ line ∈ listing.words.map String.toList,
      ∃ word : Word, line = word.text.toList := by
    simp only [words_eq, List.map_map, List.mem_map]
    rintro line ⟨word, -, rfl⟩
    exact ⟨word, rfl⟩
  rw [toList_wordLines]
  apply lines_flatMap
  · intro line found
    obtain ⟨word, rfl⟩ := isWord line found
    exact word.feed_notMem_text
  · intro line found
    obtain ⟨word, rfl⟩ := isWord line found
    exact word.getLast?_text_ne

/-- Every entry has its number as its address, and as its source what a line says without its
comment and its outer blanks. -/
structure IsNumbered (listing : Listing) : Prop where
  address : ∀ (i : Nat) (inside : i < listing.entries.length), listing.entries[i].address = i
  source : ∀ entry ∈ listing.entries, IsStripped entry.source.toList

/-- The lines of the grid are the rows of the entries. -/
theorem IsNumbered.forall₂_lines_grid (numbered : listing.IsNumbered) :
    List.Forall₂ Entry.IsRow listing.entries (lines listing.grid.toList) := by
  obtain ⟨rows, cells, written⟩ := exists_toList_grid listing
  have isRow : ∀ line ∈ rows, ∃ entry ∈ listing.entries, entry.IsRow line := by
    intro line found
    obtain ⟨i, inside, rfl⟩ := List.getElem_of_mem found
    have inside' : i < listing.entries.length := by rwa [cells.length_eq]
    exact ⟨_, List.getElem_mem inside', cells.get inside' inside⟩
  have read : lines listing.grid.toList = rows := by
    rw [written]
    apply lines_flatMap
    · intro line found
      obtain ⟨entry, member, row⟩ := isRow line found
      exact row.feed_notMem (numbered.source entry member)
    · intro line found
      obtain ⟨entry, -, row⟩ := isRow line found
      exact row.getLast?_ne
  rwa [read]

/-- What the grid shows of a listing. -/
def shown (listing : Listing) : List (Nat × String × String) :=
  listing.entries.map fun entry => (entry.address, entry.source, entry.instruction.text)

/-- Two listings with one grid show the same. -/
theorem IsNumbered.shown_eq (numbered : listing.IsNumbered) (numbered' : listing'.IsNumbered)
    (same : listing.grid = listing'.grid) : listing.shown = listing'.shown := by
  have rows := numbered.forall₂_lines_grid
  have rows' := numbered'.forall₂_lines_grid
  rw [← same] at rows'
  have size : listing.entries.length = listing'.entries.length :=
    rows.length_eq.trans rows'.length_eq.symm
  rw [shown, shown]
  apply List.ext_getElem
  · rw [List.length_map, List.length_map, size]
  · intro i inside inside'
    rw [List.length_map] at inside inside'
    have line : i < (lines listing.grid.toList).length := by rwa [← rows.length_eq]
    have address : listing.entries[i].address = listing'.entries[i].address := by
      rw [numbered.address i inside, numbered'.address i inside']
    obtain ⟨source, word⟩ : listing.entries[i].source = listing'.entries[i].source ∧
        listing.entries[i].instruction.text = listing'.entries[i].instruction.text :=
      Entry.IsRow.unique (rows.get inside line) (rows'.get inside' line)
        (numbered.source _ (List.getElem_mem inside))
        (numbered'.source _ (List.getElem_mem inside')) address
    rw [List.getElem_map, List.getElem_map, address, source, word]

theorem isNumbered_of_assembled {mode : Mode} {source : String}
    (assembled : (assemble mode source).outcome = .ok listing) : listing.IsNumbered := by
  obtain rfl := eq_listing_of_outcome assembled
  constructor
  · intro i inside
    simp [Meaning.listing, Meaning.entry]
  · intro entry found
    obtain ⟨⟨⟨line, op⟩, place⟩, placed, rfl⟩ := List.mem_map.1 found
    have token : ⟨line, .operation op⟩ ∈ Token.ofSource source :=
      Meaning.mem_commands_iff.1 (List.fst_mem_of_mem_zipIdx placed)
    obtain ⟨text, stated, read⟩ := Token.mem_ofSource_iff.1 token
    have written := Statement.toList_text_of_ofStripped? read
    rw [← written] at stated
    exact isStripped_of_mem_strippedLines stated

end Listing

/-- The grid of an assembled listing has one line for each entry, in order, which ends with the
line that the file of words has for the entry. Whatever the sources hold, two programs with one
grid have the same addresses, sources and words. -/
theorem grid_of_assembled {mode : Mode} {source : String} {listing : Listing}
    (assembled : (assemble mode source).outcome = .ok listing) :
    List.Forall₂ Entry.IsRow listing.entries (lines listing.grid.toList) ∧
      lines listing.wordLines.toList = listing.words.map String.toList ∧
      List.Forall₂ (· <:+ ·) (lines listing.wordLines.toList) (lines listing.grid.toList) ∧
      ∀ {mode' : Mode} {source' : String} {listing' : Listing},
        (assemble mode' source').outcome = .ok listing' → listing.grid = listing'.grid →
          listing.shown = listing'.shown := by
  have numbered := Listing.isNumbered_of_assembled assembled
  have rows := numbered.forall₂_lines_grid
  refine ⟨rows, listing.lines_wordLines, ?_, ?_⟩
  · rw [Listing.lines_wordLines, Listing.words, List.map_map, List.forall₂_map_left_iff]
    exact rows.imp fun entry line row => row.suffix
  · intro mode' source' listing' assembled' same
    exact numbered.shown_eq (Listing.isNumbered_of_assembled assembled') same

/-- A source that looks like a row, on the first line and further down. -/
theorem grid_of_assembled_source_like_row :
    ∃ listing listing',
      ((assemble .strict "@0:  => 01\n  0;JMP // end").outcome = .ok listing ∧
        (assemble .lenient "\n@0:  => 01\n\n0;JMP").outcome = .ok listing' ∧
        listing ≠ listing' ∧ listing.grid = listing'.grid) ∧
      List.Forall₂ Entry.IsRow listing.entries (lines listing.grid.toList) ∧
      lines listing.wordLines.toList = listing.words.map String.toList ∧
      List.Forall₂ (· <:+ ·) (lines listing.wordLines.toList) (lines listing.grid.toList) ∧
      listing.shown = listing'.shown := by
  have assembled : (assemble .strict "@0:  => 01\n  0;JMP // end").outcome =
      .ok ⟨[⟨0, 1, "@0:  => 01", .address 16⟩, ⟨1, 2, "0;JMP", .compute 0 0b0101010 0b111⟩]⟩ := by
    decide +kernel
  have assembled' : (assemble .lenient "\n@0:  => 01\n\n0;JMP").outcome =
      .ok ⟨[⟨0, 2, "@0:  => 01", .address 16⟩, ⟨1, 4, "0;JMP", .compute 0 0b0101010 0b111⟩]⟩ := by
    decide +kernel
  obtain ⟨rows, words, ends, told⟩ := grid_of_assembled assembled
  exact ⟨_, _, ⟨assembled, assembled', by decide, rfl⟩, rows, words, ends, told assembled' rfl⟩

end HackAssembler
