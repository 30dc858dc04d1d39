import HackAssembler.Proofs.Stripping
import HackAssembler.Text.Split
import HackAssembler.Token
import Mathlib.Data.List.Basic

/-!
# Sources line by line

A text is a row of lines that end at line feeds, and a last line that does not. What is proved of a
last line, and of a line in front of a text if it is proved of that text, is proved of every text
(`feedInduction`). In this way the lines of a source that say something are found to be those of its
parts: of one line and the rest (`saidFrom_append_feed`), or of any two texts with a line feed
between them (`saidFrom_append`). They are all that the tokens of a source depend on
(`ofSource_eq_filterMap`).
-/

set_option autoImplicit false

namespace HackAssembler

namespace Text

variable {line : List Char}

/-- A line in front of a line feed, without the carriage return that belongs to the ending. -/
def dropReturn (line : List Char) : List Char :=
  if line.getLast? = some '\r' then line.dropLast else line

theorem lines_append_feed (feed : '\n' ∉ line) (rest : List Char) :
    lines (line ++ '\n' :: rest) = dropReturn line :: lines rest := by
  induction line with
  | nil => exact lines_feed rest
  | cons c more ih =>
    have here := List.ne_of_not_mem_cons feed
    have later := List.not_mem_of_not_mem_cons feed
    -- A carriage return only counts as an ending in front of the line feed itself.
    cases more with
    | nil =>
      by_cases ending : c = '\r'
      · subst ending
        exact lines_return_feed rest
      · rw [List.cons_append, lines_cons (Ne.symm here) (Or.inl ending), List.nil_append,
          lines_feed]
        simp [dropReturn, ending]
    | cons next others =>
      have kept : (next :: others ++ '\n' :: rest).head? ≠ some '\n' := by
        rw [List.cons_append, List.head?_cons, ne_eq, Option.some.injEq]
        exact Ne.symm (List.ne_of_not_mem_cons later)
      rw [List.cons_append, lines_cons (Ne.symm here) (Or.inr kept), ih later]
      by_cases ending : (next :: others).getLast? = some '\r' <;>
        simp [dropReturn, List.getLast?_cons_cons, ending]

/-- Without a line feed there is one line, or none. -/
theorem lines_of_notMem (feed : '\n' ∉ line) : lines line = if line = [] then [] else [line] := by
  induction line with
  | nil => rfl
  | cons c more ih =>
    have later := List.not_mem_of_not_mem_cons feed
    have kept : more.head? ≠ some '\n' := fun start => later (List.mem_of_head? start)
    rw [lines_cons (Ne.symm (List.ne_of_not_mem_cons feed)) (Or.inr kept), ih later]
    by_cases last : more = [] <;> simp [last]

/-- The rule for texts: they are built from their end, line by line. -/
@[elab_as_elim]
theorem feedInduction {Holds : List Char → Prop} (text : List Char)
    (last : ∀ line, '\n' ∉ line → Holds line)
    (feed : ∀ line rest, '\n' ∉ line → Holds rest → Holds (line ++ '\n' :: rest)) : Holds text := by
  induction size : text.length using Nat.strong_induction_on generalizing text with
  | h n shorter =>
    cases cut : splitAtFirst '\n' text with
    | none => exact last text (splitAtFirst_eq_none_iff.1 cut)
    | some pieces =>
      obtain ⟨whole, clean⟩ := splitAtFirst_eq_some_iff.1 cut
      rw [whole] at size ⊢
      refine feed pieces.1 pieces.2 clean (shorter _ ?_ pieces.2 rfl)
      rw [← size, List.length_append, List.length_cons]
      omega

theorem feed_notMem_of_mem_lines {text : List Char} (found : line ∈ lines text) : '\n' ∉ line := by
  induction text using feedInduction with
  | last piece clean =>
    rw [lines_of_notMem clean] at found
    split at found
    · contradiction
    · rwa [List.mem_singleton.1 found]
  | feed piece rest clean ih =>
    rw [lines_append_feed clean] at found
    rcases List.mem_cons.1 found with rfl | later
    · unfold dropReturn
      split
      · exact fun inside => clean (List.mem_of_mem_dropLast inside)
      · exact clean
    · exact ih later

/-- Lines that are written out one after the other are read back, if none of them holds what ends a
line. -/
theorem lines_flatMap {texts : List (List Char)} (clean : ∀ text ∈ texts, '\n' ∉ text)
    (kept : ∀ text ∈ texts, text.getLast? ≠ some '\r') :
    lines (texts.flatMap (· ++ ['\n'])) = texts := by
  induction texts with
  | nil => rfl
  | cons text rest ih =>
    have first : dropReturn text = text := if_neg (kept text List.mem_cons_self)
    have later := ih (fun other found => clean other (List.mem_cons_of_mem _ found))
      (fun other found => kept other (List.mem_cons_of_mem _ found))
    rw [List.flatMap_cons, List.append_assoc, List.singleton_append,
      lines_append_feed (clean text List.mem_cons_self), first, later]

/-- The same text with a carriage return in front of every line feed. -/
def addReturns (text : List Char) : List Char :=
  text.flatMap fun c => if c = '\n' then ['\r', '\n'] else [c]

theorem addReturns_of_notMem (clean : '\n' ∉ line) : addReturns line = line := by
  induction line with
  | nil => rfl
  | cons c rest ih =>
    have here := List.ne_of_not_mem_cons clean
    have later := ih (List.not_mem_of_not_mem_cons clean)
    unfold addReturns at later ⊢
    rw [List.flatMap_cons, if_neg (Ne.symm here), later, List.singleton_append]

theorem addReturns_append_feed (clean : '\n' ∉ line) (rest : List Char) :
    addReturns (line ++ '\n' :: rest) = (line ++ ['\r']) ++ '\n' :: addReturns rest := by
  rw [addReturns, List.flatMap_append, ← addReturns, addReturns_of_notMem clean]
  simp [addReturns]

end Text

open Text

/-! ## Lines that say something -/

/-- The same thing on another line. -/
def Located.moved {α : Type} (move : Nat → Nat) (located : Located α) : Located α :=
  ⟨move located.line, located.item⟩

theorem Located.item_comp_moved {α : Type} (move : Nat → Nat) :
    (item : Located α → α) ∘ moved move = item := rfl

namespace Statement

theorem strip_dropReturn (line : List Char) : strip (dropReturn line) = strip line := by
  unfold dropReturn
  split
  · rename_i ending
    have blank : isBlank '\r' = true := by decide
    rw [← strip_concat_of_isBlank blank, List.dropLast_append_getLast? _ ending]
  · rfl

/-- What a line says without comment and outer blanks, if it says something. -/
def said (number : Nat) (line : List Char) : List (Located (List Char)) :=
  if strip line = [] then [] else [⟨number, strip line⟩]

/-- What the lines of a text say, when they are counted from a number on. -/
def saidFrom (number : Nat) (text : List Char) : List (Located (List Char)) :=
  ((lines text).zipIdx number).flatMap fun (line, number) => said number line

variable {line : List Char} {number : Nat}

theorem saidFrom_of_notMem (clean : '\n' ∉ line) (number : Nat) :
    saidFrom number line = said number line := by
  rw [saidFrom, lines_of_notMem clean]
  split
  · rename_i empty
    rw [empty]
    rfl
  · simp

theorem saidFrom_append_feed (clean : '\n' ∉ line) (rest : List Char) (number : Nat) :
    saidFrom number (line ++ '\n' :: rest) = said number line ++ saidFrom (number + 1) rest := by
  have first : said number (dropReturn line) = said number line := by
    rw [said, strip_dropReturn, said]
  rw [saidFrom, lines_append_feed clean, List.zipIdx_cons, List.flatMap_cons, saidFrom]
  dsimp only
  rw [first]

/-- Between two texts a line feed keeps what they say apart. -/
theorem saidFrom_append (first second : List Char) (number : Nat) :
    saidFrom number (first ++ '\n' :: second) =
      saidFrom number first ++ saidFrom (number + (first.count '\n' + 1)) second := by
  induction first using feedInduction generalizing number with
  | last line clean =>
    rw [saidFrom_append_feed clean, saidFrom_of_notMem clean, List.count_eq_zero_of_not_mem clean]
  | feed line rest clean ih =>
    rw [List.append_assoc, List.cons_append, saidFrom_append_feed clean, ih,
      saidFrom_append_feed clean, List.append_assoc, List.count_append, List.count_cons_self,
      List.count_eq_zero_of_not_mem clean]
    congr 3
    omega

theorem saidFrom_add (number count : Nat) (text : List Char) :
    saidFrom (number + count) text = (saidFrom number text).map (Located.moved (· + count)) := by
  have one (number : Nat) (line : List Char) :
      said (number + count) line = (said number line).map (Located.moved (· + count)) := by
    unfold said
    split <;> rfl
  induction text using feedInduction generalizing number with
  | last line clean => rw [saidFrom_of_notMem clean, saidFrom_of_notMem clean, one]
  | feed line rest clean ih =>
    rw [saidFrom_append_feed clean, saidFrom_append_feed clean, List.map_append, ← ih, one,
      Nat.add_right_comm]

theorem saidFrom_addReturns (number : Nat) (text : List Char) :
    saidFrom number (addReturns text) = saidFrom number text := by
  induction text using feedInduction generalizing number with
  | last line clean => rw [addReturns_of_notMem clean]
  | feed line rest clean ih =>
    have blank : isBlank '\r' = true := by decide
    have clean' : '\n' ∉ line ++ ['\r'] := by simpa using clean
    rw [addReturns_append_feed clean, saidFrom_append_feed clean', ih, saidFrom_append_feed clean,
      said, strip_concat_of_isBlank blank, ← said]

/-- What lines say that are written out one after the other. -/
theorem saidFrom_flatMap {texts : List (List Char)} (clean : ∀ text ∈ texts, '\n' ∉ text)
    (number : Nat) :
    saidFrom number (texts.flatMap (· ++ ['\n'])) =
      (texts.zipIdx number).flatMap fun (text, number) => said number text := by
  induction texts generalizing number with
  | nil => rfl
  | cons text rest ih =>
    have later := ih (fun other found => clean other (List.mem_cons_of_mem _ found)) (number + 1)
    rw [List.flatMap_cons, List.append_assoc, List.singleton_append,
      saidFrom_append_feed (clean text List.mem_cons_self), later, List.zipIdx_cons,
      List.flatMap_cons]

theorem mem_saidFrom_iff {number : Nat} {text : List Char} {what : Located (List Char)} :
    what ∈ saidFrom number text ↔
      ∃ line, (line, what.line) ∈ (lines text).zipIdx number ∧ strip line = what.item ∧
        what.item ≠ [] := by
  obtain ⟨place, item⟩ := what
  simp only [saidFrom, List.mem_flatMap, Prod.exists]
  constructor
  · rintro ⟨line, _, found, inside⟩
    unfold said at inside
    split at inside
    · contradiction
    · rename_i filled
      obtain ⟨rfl, rfl⟩ := Located.mk.inj (List.mem_singleton.1 inside)
      exact ⟨line, found, rfl, filled⟩
  · rintro ⟨line, found, rfl, filled⟩
    exact ⟨line, place, found, by simp [said, filled]⟩

/-- What lines say stands in the order of the lines. -/
theorem pairwise_saidFrom (number : Nat) (text : List Char) :
    (saidFrom number text).Pairwise (·.line < ·.line) := by
  have counted : ((lines text).zipIdx number).Pairwise (·.2 < ·.2) := by
    rw [← List.pairwise_map, List.zipIdx_map_snd]
    exact List.pairwise_lt_range'
  have line {number : Nat} {text : List Char} {what : Located (List Char)}
      (found : what ∈ said number text) : what.line = number := by
    unfold said at found
    split at found
    · contradiction
    · rw [List.mem_singleton.1 found]
  rw [saidFrom, List.pairwise_flatMap]
  constructor
  · rintro ⟨text, number⟩ -
    show (said number text).Pairwise _
    unfold said
    split <;> simp
  · refine counted.imp ?_
    intro first second before what found what' found'
    rw [line found, line found']
    exact before

end Statement

/-- The lines of a source that say something, without comments and outer blanks. -/
def strippedLines (source : String) : List (Located (List Char)) :=
  Statement.saidFrom 1 source.toList

theorem strippedLines_eq_of_map_strip_eq {source source' : String}
    (same : (lines source'.toList).map Statement.strip =
      (lines source.toList).map Statement.strip) :
    strippedLines source' = strippedLines source := by
  have stripped (source : String) : strippedLines source =
      (((lines source.toList).map Statement.strip).zipIdx 1).flatMap
        fun (text, number) => if text = [] then [] else [⟨number, text⟩] := by
    rw [List.zipIdx_map, List.flatMap_map]
    rfl
  rw [stripped, stripped, same]

theorem strippedLines_addReturns (source : String) :
    strippedLines (String.ofList (addReturns source.toList)) = strippedLines source := by
  rw [strippedLines, String.toList_ofList, Statement.saidFrom_addReturns, strippedLines]

namespace Token

/-- Reads what a line says. -/
def ofStripped? (text : Located (List Char)) : Option Token :=
  (Statement.ofStripped? text.item).map fun statement => ⟨text.line, statement⟩

theorem ofSource_eq_filterMap (source : String) :
    ofSource source = (strippedLines source).filterMap ofStripped? := by
  have one (number : Nat) (line : List Char) :
      (Statement.said number line).filterMap ofStripped? = (ofLine? number line).toList := by
    unfold Statement.said ofLine? Statement.ofLine?
    split
    · rename_i blank
      rw [blank]
      rfl
    · rw [List.filterMap_cons, List.filterMap_nil, ofStripped?]
      cases Statement.ofStripped? (Statement.strip line) <;> rfl
  rw [strippedLines, Statement.saidFrom, List.filterMap_flatMap, ofSource,
    List.filterMap_eq_flatMap_toList]
  simp only [one]

/-- Behind a line feed a source says what it says alone, on lines further down. -/
theorem ofSource_append_feed (first second : String) :
    ofSource (first ++ "\n" ++ second) = ofSource first ++
      (ofSource second).map (Located.moved (· + (first.toList.count '\n' + 1))) := by
  have chars : (first ++ "\n" ++ second).toList = first.toList ++ '\n' :: second.toList := by
    simp
  have moved (move : Nat → Nat) : ofStripped? ∘ Located.moved move =
      fun text => (ofStripped? text).map (Located.moved move) := by
    funext text
    rw [Function.comp_apply, ofStripped?, ofStripped?, Option.map_map]
    rfl
  rw [ofSource_eq_filterMap, ofSource_eq_filterMap, ofSource_eq_filterMap, strippedLines, chars,
    Statement.saidFrom_append, Statement.saidFrom_add, List.filterMap_append, List.filterMap_map,
    moved, ← List.map_filterMap]
  rfl

/-- The tokens of a source stand in the order of its lines. -/
theorem pairwise_ofSource (source : String) : (ofSource source).Pairwise (·.line < ·.line) := by
  rw [ofSource_eq_filterMap, List.pairwise_filterMap]
  refine (Statement.pairwise_saidFrom 1 source.toList).imp ?_
  intro first second before token read token' read'
  obtain ⟨statement, -, rfl⟩ := Option.map_eq_some_iff.1 read
  obtain ⟨statement', -, rfl⟩ := Option.map_eq_some_iff.1 read'
  exact before

/-- The token of a line is what the line says. -/
theorem mem_ofSource_iff {source : String} {token : Token} :
    token ∈ ofSource source ↔
      ∃ text, ⟨token.line, text⟩ ∈ strippedLines source ∧
        Statement.ofStripped? text = some token.item := by
  obtain ⟨number, statement⟩ := token
  rw [ofSource_eq_filterMap, List.mem_filterMap]
  simp only [ofStripped?, Option.map_eq_some_iff, Located.mk.injEq]
  constructor
  · rintro ⟨⟨line, text⟩, found, _, read, rfl, rfl⟩
    exact ⟨text, found, read⟩
  · rintro ⟨text, found, read⟩
    exact ⟨_, found, statement, read, rfl, rfl⟩

/-- The tokens of a source say what its lines say one by one. -/
theorem map_item_ofSource_eq_filterMap (source : String) :
    (ofSource source).map Located.item = (lines source.toList).filterMap Statement.ofLine? := by
  have counted : ((lines source.toList).zipIdx 1).map Prod.fst = lines source.toList :=
    List.zipIdx_map_fst ..
  conv_rhs => rw [← counted, List.filterMap_map]
  rw [ofSource, List.map_filterMap]
  congr 1
  funext placed
  simp [ofLine?, Function.comp_def]

/-- What the tokens of a source say does not depend on where its lines stand. -/
theorem map_item_ofSource (source : String) :
    (ofSource source).map Located.item =
      ((strippedLines source).map Located.item).filterMap Statement.ofStripped? := by
  rw [ofSource_eq_filterMap, List.map_filterMap, List.filterMap_map]
  congr 1
  funext text
  simp [ofStripped?, Function.comp_def]

end Token

end HackAssembler
