import HackAssembler.Proofs.Agreement
import HackAssembler.Proofs.LineNumbers
import HackAssembler.Proofs.Reading

/-!
# The formatting of a source

Of the formatting of a source nothing matters but what its lines say when comments and outer blanks
are gone. Sources that say the same are assembled to the same code, or rejected for the same defect,
wherever their lines stand; and if the lines stand in the same places as well, the two assemblies
are the same to the last notice. The kind of line ending is part of the formatting, and so is
everything that is lost when the tokens of a source are written out again.
-/

set_option autoImplicit false

namespace HackAssembler

open Meaning

/-- The faults are the same defect. -/
def Fault.SameDefect (fault other : Fault) : Prop := other.item = fault.item

/-- The entries are the same except for the line. -/
def Entry.SameButLine (entry other : Entry) : Prop :=
  other.address = entry.address ∧ other.source = entry.source ∧
    other.instruction = entry.instruction

/-- The listings are the same except for the lines, entry by entry. -/
def Listing.SameButLines (listing other : Listing) : Prop :=
  List.Forall₂ Entry.SameButLine listing.entries other.entries

namespace Meaning

variable {tokens tokens' : List Token}

/-- Programs that say the same are one program when all their tokens are moved to one line. -/
theorem map_moved_eq_of_map_item_eq
    (same : tokens'.map Located.item = tokens.map Located.item) :
    tokens'.map (Located.moved fun _ => 0) = tokens.map (Located.moved fun _ => 0) := by
  have moved (tokens : List Token) :
      tokens.map (Located.moved fun _ => 0) = (tokens.map Located.item).map (Located.mk 0) := by
    rw [List.map_map]
    rfl
  rw [moved, moved, same]

theorem map_item_fault?_eq (same : tokens'.map Located.item = tokens.map Located.item) :
    (fault? tokens').map Located.item = (fault? tokens).map Located.item := by
  have settled (tokens : List Token) :
      (fault? (tokens.map (Located.moved fun _ => 0))).map Located.item =
        (fault? tokens).map Located.item := by
    rw [fault?_moved, Option.map_map, Located.item_comp_moved]
  rw [← settled, map_moved_eq_of_map_item_eq same, settled]

theorem sameButLines_listing (same : tokens'.map Located.item = tokens.map Located.item) :
    (listing tokens).SameButLines (listing tokens') := by
  have moved : (listing tokens').entries.map (Entry.moved fun _ => 0) =
      (listing tokens).entries.map (Entry.moved fun _ => 0) := by
    rw [← listing_moved, map_moved_eq_of_map_item_eq same, listing_moved]
  rw [← List.forall₂_eq_eq_eq, List.forall₂_map_left_iff, List.forall₂_map_right_iff] at moved
  refine moved.flip.imp fun entry other same => ?_
  obtain ⟨address, -, source, instruction⟩ := Entry.mk.inj same
  exact ⟨address, source, instruction⟩

/-- Programs that say the same end in the same way, in either mode. -/
theorem outcomesAgree_of_map_item_eq (mode : Mode) {source source' : String}
    (same : (Token.ofSource source').map Located.item =
      (Token.ofSource source).map Located.item) :
    Traced.OutcomesAgree Fault.SameDefect Listing.SameButLines (assemble mode source).outcome
      (assemble mode source').outcome := by
  have stopped : (mode.stops (fault? (Token.ofSource source'))).map Located.item =
      (mode.stops (fault? (Token.ofSource source))).map Located.item := by
    cases mode with
    | lenient => rw [Mode.stops_lenient, Mode.stops_lenient]
    | strict =>
      rw [Mode.stops_strict, Mode.stops_strict]
      exact map_item_fault?_eq same
  have listings := sameButLines_listing same
  rw [outcome_assemble, outcome_assemble]
  generalize mode.stops (fault? (Token.ofSource source')) = fault'? at stopped
  generalize mode.stops (fault? (Token.ofSource source)) = fault? at stopped
  cases fault? with
  | none =>
    rw [Option.map_none, Option.map_eq_none_iff] at stopped
    subst stopped
    exact .ok listings
  | some fault =>
    obtain ⟨fault', rfl, defect⟩ := Option.map_eq_some_iff.1 stopped
    exact .error defect

end Meaning

theorem Listing.SameButLines.code {listing other : Listing} (same : listing.SameButLines other) :
    other.code = listing.code := by
  have instructions : List.Forall₂ (fun entry other : Entry =>
      entry.instruction.encode = other.instruction.encode) listing.entries other.entries :=
    List.Forall₂.imp (fun _ _ same => congrArg Instruction.encode same.2.2.symm) same
  rw [← List.forall₂_map_right_iff, ← List.forall₂_map_left_iff, List.forall₂_eq_eq_eq]
    at instructions
  exact instructions.symm

/-! ## Sources written out again -/

/-- The statements of a source, each on a line of its own. -/
def rewritten (source : String) : String :=
  Statement.source ((Token.ofSource source).map Located.item)

theorem Token.map_item_ofSource_rewritten (source : String) :
    (ofSource (rewritten source)).map Located.item = (ofSource source).map Located.item := by
  -- A statement is written as the stripped line that it was read from.
  have stated (statement : Statement)
      (found : statement ∈ (ofSource source).map Located.item) :
      ∃ line ∈ Text.lines source.toList, statement.text.toList = Statement.strip line ∧
        Statement.ofLine? line = some statement := by
    obtain ⟨token, member, rfl⟩ := List.mem_map.1 found
    obtain ⟨text, spoken, read⟩ := mem_ofSource_iff.1 member
    obtain ⟨line, inside, rfl, -⟩ := Statement.mem_saidFrom_iff.1 spoken
    exact ⟨line, List.fst_mem_of_mem_zipIdx inside, Statement.toList_text_of_ofStripped? read, read⟩
  rw [rewritten, ofSource_source, List.map_map]
  · exact List.zipIdx_map_fst 1 _
  · intro statement found
    obtain ⟨line, inside, text, -⟩ := stated statement found
    rw [text]
    exact fun feed => Text.feed_notMem_of_mem_lines inside (Statement.mem_of_mem_strip feed)
  · intro statement found
    obtain ⟨line, -, text, read⟩ := stated statement found
    rw [text, Statement.ofLine?, Statement.strip_strip]
    exact read

/-! ## Results -/

/-- What the lines of two sources say without comments and outer blanks settles how they are
assembled, in either mode: to the same code or to the same defect, and to the same last notice if
the lines stand in the same places. In particular this holds of a source with other line endings,
of one whose lines differ in comments and outer blanks only, and, up to the places of the lines, of
one that is written out again statement by statement. -/
theorem assemble_ignores_formatting (mode : Mode) (source source' : String) :
    ((strippedLines source').map Located.item = (strippedLines source).map Located.item →
      Traced.OutcomesAgree Fault.SameDefect Listing.SameButLines (assemble mode source).outcome
        (assemble mode source').outcome) ∧
    (strippedLines source' = strippedLines source →
      assemble mode source' = assemble mode source) ∧
    assemble mode (String.ofList (Text.addReturns source.toList)) = assemble mode source ∧
    ((Text.lines source'.toList).map Statement.strip =
        (Text.lines source.toList).map Statement.strip →
      assemble mode source' = assemble mode source) ∧
    Traced.OutcomesAgree Fault.SameDefect
      (fun listing again => listing.SameButLines again ∧ again.words = listing.words)
      (assemble mode source).outcome (assemble mode (rewritten source)).outcome := by
  have placed {source source' : String} (same : strippedLines source' = strippedLines source) :
      assemble mode source' = assemble mode source := by
    rw [assemble, Token.ofSource_eq_filterMap, same, ← Token.ofSource_eq_filterMap, assemble]
  refine ⟨fun same => ?_, placed, placed (strippedLines_addReturns source), fun same => ?_, ?_⟩
  · apply outcomesAgree_of_map_item_eq
    rw [Token.map_item_ofSource, same, ← Token.map_item_ofSource]
  · exact placed (strippedLines_eq_of_map_strip_eq same)
  · exact (outcomesAgree_of_map_item_eq mode (Token.map_item_ofSource_rewritten source)).imp
      fun _ _ same => ⟨same, by rw [Listing.words_eq, same.code, Listing.words_eq]⟩

/-- A faulty line is moved down, and then only a comment and blanks are added. -/
theorem assemble_ignores_formatting_moved_and_commented :
    Traced.OutcomesAgree Fault.SameDefect Listing.SameButLines
      (assemble .strict "@i\nD=X").outcome (assemble .strict "\n@i\n// next\n D=X\n").outcome ∧
    assemble .strict "  @i // first\r\nD=X " = assemble .strict "@i\nD=X" ∧
    assemble .lenient "  @i // first\r\nD=X " = assemble .lenient "@i\nD=X" := by
  have told : (strippedLines "\n@i\n// next\n D=X\n").map Located.item =
      (strippedLines "@i\nD=X").map Located.item := by
    decide +kernel
  have placed : strippedLines "  @i // first\r\nD=X " = strippedLines "@i\nD=X" := by
    decide +kernel
  have stripped : (Text.lines "  @i // first\r\nD=X ".toList).map Statement.strip =
      (Text.lines "@i\nD=X".toList).map Statement.strip := by
    decide +kernel
  exact ⟨(assemble_ignores_formatting .strict "@i\nD=X" _).1 told,
    (assemble_ignores_formatting .strict "@i\nD=X" _).2.1 placed,
    (assemble_ignores_formatting .lenient "@i\nD=X" _).2.2.2.1 stripped⟩

end HackAssembler
