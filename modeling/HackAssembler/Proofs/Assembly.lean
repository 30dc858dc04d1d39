import HackAssembler.Proofs.Allocation
import HackAssembler.Proofs.Layout
import HackAssembler.Proofs.LineReading

/-!
# An assembly amounts to the meaning of its program

Putting the two walks together: in either mode the assembly of a source leaves the notices and the
listing that its tokens mean, unless strict mode is stopped, and then by the fault that they mean
(`Listing.ofTokens_ends`). What a lenient and a strict assembly give, and how they compare, is read
off from this one statement.
-/

set_option autoImplicit false

namespace HackAssembler

open Meaning

variable {allocation : Allocation} {names : Names} {past : List Command}

/-! ## Computations -/

theorem Field.encode_ends (mode : Mode) (line : Nat) (field : Field) (mnemonic : String) :
    (field.encode mode line mnemonic).Ends
      (mode.stops (if (field.bits? mnemonic).isNone then
        some ⟨line, .unknownMnemonic field mnemonic⟩ else none))
      (if (field.bits? mnemonic).isNone then [.mnemonicReplaced line field mnemonic] else [])
      (· = fieldBits field mnemonic) := by
  unfold Field.encode fieldBits
  cases field.bits? mnemonic with
  | some bits => exact Traced.Ends.of_eq (Traced.ends_pure rfl) mode.stops_none.symm rfl
  | none =>
    have fallback : field.fallback = 0 := by cases field <;> rfl
    exact Traced.Ends.of_eq
      (Traced.ends_bind (mode.expect_ends ..) fun _ _ _ => Traced.ends_pure fallback)
      Option.or_none (List.append_nil _)

theorem Mnemonics.encode_ends (mode : Mode) (line : Nat) (text : String) :
    ((Mnemonics.ofText text).encode mode line).Ends
      (mode.stops ((unknownMnemonics text).head?.map fun unknown =>
        ⟨line, .unknownMnemonic unknown.1 unknown.2⟩))
      ((unknownMnemonics text).map fun unknown => .mnemonicReplaced line unknown.1 unknown.2)
      (· = computation text) := by
  unfold Mnemonics.encode
  refine Traced.Ends.of_eq (Traced.ends_bind (Field.encode_ends ..) fun _ dest destBits =>
    Traced.ends_bind (Field.encode_ends ..) fun _ comp compBits =>
    Traced.ends_bind (Field.encode_ends ..) fun _ jump jumpBits => Traced.ends_pure ?_) ?_ ?_
  · rw [destBits, compBits, jumpBits, computation]
  · rw [Option.or_none, ← mode.stops_or, ← mode.stops_or]
    simp only [unknownMnemonics, List.filter_cons, List.filter_nil]
    cases (Field.dest.bits? (ofText text).dest).isNone <;>
      cases (Field.comp.bits? (ofText text).comp).isNone <;>
      cases (Field.jump.bits? (ofText text).jump).isNone <;> rfl
  · simp only [unknownMnemonics, List.filter_cons, List.filter_nil]
    cases (Field.dest.bits? (ofText text).dest).isNone <;>
      cases (Field.comp.bits? (ofText text).comp).isNone <;>
      cases (Field.jump.bits? (ofText text).jump).isNone <;> rfl

/-! ## Commands -/

/-- One step of the second walk: a command is encoded as the program means it, or is the fault that
stops the walk. -/
theorem Command.encode_ends {mode : Mode} (tracks : allocation.Tracks mode names past)
    (command : Command) :
    (command.encode mode allocation).Ends (mode.stops (commandFault? names past command))
      (commandNotices names past command)
      fun r => r.1.Tracks mode names (past ++ [command]) ∧
        r.2 = instruction names past command.item := by
  suffices encoded : (command.encode mode allocation).Ends
      (mode.stops (commandFault? names past command)) (commandNotices names past command)
      fun r => r.1.Describes names (past ++ [command]) ∧
        r.2 = instruction names past command.item by
    refine encoded.imp fun fine r holds => ⟨⟨holds.1, ?_⟩, holds.2⟩
    rintro rfl
    exact card_variableNames_le (tracks.room rfl) fine
  obtain ⟨line, operation⟩ := command
  cases operation with
  | address operand =>
    refine Traced.Ends.of_eq (Traced.ends_bind (Allocation.resolve_ends tracks line operand)
      fun _ r resolved => Traced.ends_pure ?_) Option.or_none (List.append_nil _)
    exact ⟨resolved.1, by rw [resolved.2, instruction]⟩
  | compute text =>
    refine Traced.Ends.of_eq (Traced.ends_bind (Mnemonics.encode_ends mode line text)
      fun _ r encoded => Traced.ends_pure ?_) ?_ (List.append_nil _)
    · exact ⟨tracks.compute line text, encoded⟩
    · rw [Option.or_none, commandFault?, Option.map_map]
      rfl

theorem Entry.ofCommand_ends {mode : Mode} (tracks : allocation.Tracks mode names past)
    (placed : Command × Nat) :
    (Entry.ofCommand mode allocation placed).Ends
      (mode.stops (commandFault? names past placed.1)) (commandNotices names past placed.1)
      fun r => r.1.Tracks mode names (past ++ [placed.1]) ∧ r.2 = entry names past placed := by
  refine Traced.Ends.of_eq (Traced.ends_bind (Command.encode_ends tracks placed.1)
    fun _ r encoded => Traced.ends_pure ?_) Option.or_none (List.append_nil _)
  exact ⟨encoded.1, by rw [encoded.2, entry]⟩

theorem Meaning.entry_of_mem_withPast {commands : List Command} {placed : Command × Nat}
    (found : (past, placed.1) ∈ withPast commands) :
    entry names past placed = entry names commands placed := by
  obtain ⟨rest, rfl⟩ := mem_withPast.1 found
  obtain ⟨⟨line, operation⟩, place⟩ := placed
  cases operation with
  | address operand => simp only [entry, instruction, operandAddress_append_cons]
  | compute text => rfl

/-- The second walk over a program whose labels are placed. -/
theorem Meaning.commands_ends (mode : Mode) {symbols : SymbolTable}
    (lookup : ∀ name, symbols.lookup name = names name) (commands : List Command) :
    (Traced.mapAccum (Entry.ofCommand mode) (.start symbols) commands.zipIdx).Ends
      (mode.stops ((withPast commands).findSome? fun p => commandFault? names p.1 p.2))
      ((withPast commands).flatMap fun p => commandNotices names p.1 p.2)
      fun r => r.1.Describes names commands ∧
        r.2 = commands.zipIdx.map (entry names commands) := by
  -- The walk is over commands with their places, the faults are about commands.
  have unplaced : withPast commands =
      (withPast commands.zipIdx).map fun p => (p.1.map Prod.fst, p.2.1) := by
    rw [← withPast_map, List.zipIdx_map_fst]
  have start : (Allocation.start symbols).Tracks mode names [] :=
    ⟨Allocation.describes_start lookup, fun _ => Nat.zero_le _⟩
  have step (past : List (Command × Nat)) (placed : Command × Nat) (allocation : Allocation)
      (found : (past, placed) ∈ withPast commands.zipIdx)
      (tracks : allocation.Tracks mode names (past.map Prod.fst)) :
      (Entry.ofCommand mode allocation placed).Ends
        (mode.stops (commandFault? names (past.map Prod.fst) placed.1))
        (commandNotices names (past.map Prod.fst) placed.1)
        fun r => r.1.Tracks mode names ((past ++ [placed]).map Prod.fst) ∧
          r.2 = entry names commands placed := by
    have settled : (past.map Prod.fst, placed.1) ∈ withPast commands := by
      rw [unplaced]
      exact List.mem_map_of_mem found
    rw [← entry_of_mem_withPast settled, List.map_append]
    exact Entry.ofCommand_ends tracks placed
  have run := Traced.mapAccum_ends
    (fun past (allocation : Allocation) => allocation.Tracks mode names (past.map Prod.fst))
    start step
  rw [mode.stops_findSome?, unplaced, List.findSome?_map, List.flatMap_map]
  refine run.imp fun _ r holds => ⟨by simpa using holds.1.toDescribes, ?_⟩
  rw [holds.2, ← map_snd_withPast commands.zipIdx, List.map_map, map_snd_withPast]
  rfl

/-! ## Programs -/

/-- The assembly of a program in either mode. -/
theorem Listing.ofTokens_ends (mode : Mode) {tokens : List Token}
    (named : mode = .strict → ∀ token ∈ tokens, token.item ≠ .label "") :
    (Listing.ofTokens mode tokens).Ends (mode.stops (fault? tokens)) (notices tokens)
      (· = listing tokens) := by
  have counted (layout : Layout) (describes : layout.Describes tokens) :
      (Traced.note (.labelsDone (commands tokens).length layout.symbols.size) :
        Assembly Unit).Ends none [.labelsDone (commands tokens).length (symbolCount tokens)]
        fun _ => True := by
    rw [describes.symbolCount]
    exact Traced.ends_note _
  have closed (allocation : Allocation)
      (describes : allocation.Describes (known? tokens) (commands tokens)) :
      (Traced.note (.encodingDone allocation.count) : Assembly Unit).Ends none
        [.encodingDone (UInt16.ofNat (variableNames (known? tokens) (commands tokens)).card)]
        fun _ => True := by
    rw [describes.count]
    exact Traced.ends_note _
  refine Traced.Ends.of_eq (Traced.ends_bind (Layout.ofTokens_ends mode named)
    fun _ layout describes => Traced.ends_bind (counted layout describes) fun _ _ _ =>
    Traced.ends_bind (commands_ends mode describes.lookup (commands tokens)) fun _ r encoded =>
    Traced.ends_bind (closed r.1 encoded.1) fun _ _ _ => Traced.ends_pure ?_) ?_ ?_
  · rw [encoded.2, listing]
  · rw [Option.or_none, Option.none_or, Option.or_none, fault?, mode.stops_or]
  · simp [notices]

/-! ## Words -/

/-- The machine words of a listing. -/
def Listing.code (listing : Listing) : List Word :=
  listing.entries.map fun entry => entry.instruction.encode

theorem Listing.words_eq (listing : Listing) : listing.words = listing.code.map Word.text := by
  rw [words, code, List.map_map]
  rfl

theorem Meaning.code_listing (tokens : List Token) :
    (listing tokens).code = (commands tokens).map fun command =>
      (instruction (known? tokens) (commands tokens) command.item).encode := by
  have whole : (listing tokens).code = (commands tokens).zipIdx.map
      ((fun command => (instruction (known? tokens) (commands tokens) command.item).encode) ∘
        Prod.fst) := by
    rw [Listing.code, listing, List.map_map]
    rfl
  rw [whole, ← List.map_map, List.zipIdx_map_fst]

/-! ## Sources -/

/-- A label of a source has a name. -/
theorem Token.item_ne_label_empty {source : String} {token : Token}
    (found : token ∈ ofSource source) : token.item ≠ .label "" := by
  simp only [ofSource, List.mem_filterMap, Prod.exists, ofLine?, Option.map_eq_some_iff] at found
  obtain ⟨line, number, -, statement, read, rfl⟩ := found
  rintro rfl
  have declares : Statement.Declares (Statement.strip line) "" := Statement.ofStripped?_eq_iff.1 read
  exact declares.1.2 rfl

theorem assemble_ends (mode : Mode) (source : String) :
    (assemble mode source).Ends (mode.stops (fault? (Token.ofSource source)))
      (notices (Token.ofSource source)) (· = listing (Token.ofSource source)) :=
  Listing.ofTokens_ends mode fun _ _ found => Token.item_ne_label_empty found

/-- How the assembly of a source ends. -/
theorem outcome_assemble (mode : Mode) (source : String) :
    (assemble mode source).outcome =
      match mode.stops (fault? (Token.ofSource source)) with
      | some fault => .error fault
      | none => .ok (listing (Token.ofSource source)) := by
  have ends := assemble_ends mode source
  cases stopped : mode.stops (fault? (Token.ofSource source)) with
  | some fault => rwa [stopped] at ends
  | none =>
    rw [stopped] at ends
    obtain ⟨result, run, rfl⟩ := ends
    rw [run]

/-- What a source is assembled to is what its tokens mean, in either mode. -/
theorem eq_listing_of_outcome {mode : Mode} {source : String} {result : Listing}
    (assembled : (assemble mode source).outcome = .ok result) :
    result = listing (Token.ofSource source) :=
  ((assemble_ends mode source).of_ok assembled).2.2

/-- Without a fault both modes do the same. -/
theorem assemble_of_sound {source : String} (sound : fault? (Token.ofSource source) = none)
    (mode : Mode) :
    assemble mode source =
      ⟨notices (Token.ofSource source), .ok (listing (Token.ofSource source))⟩ := by
  have ends := assemble_ends mode source
  rw [sound, mode.stops_none] at ends
  obtain ⟨result, run, rfl⟩ := ends
  exact run

theorem outcome_strict_of_fault {source : String} {fault : Fault}
    (found : fault? (Token.ofSource source) = some fault) :
    (assemble .strict source).outcome = .error fault := by
  have ends := assemble_ends .strict source
  rwa [found] at ends

/-- A lenient assembly says what its tokens call for, and ends in the listing that they mean. -/
theorem assemble_lenient (source : String) :
    assemble .lenient source =
      ⟨notices (Token.ofSource source), .ok (listing (Token.ofSource source))⟩ := by
  obtain ⟨result, run, rfl⟩ := assemble_ends .lenient source
  exact run

/-- In lenient mode every source is assembled, and to what its tokens mean. -/
theorem outcome_assemble_lenient (source : String) :
    (assemble .lenient source).outcome = .ok (listing (Token.ofSource source)) := by
  obtain ⟨result, run, rfl⟩ := assemble_ends .lenient source
  rw [run]

theorem trail_assemble_lenient (source : String) :
    (assemble .lenient source).trail = notices (Token.ofSource source) := by
  rw [assemble_lenient]

/-- In strict mode a source is rejected for the fault that its tokens mean, if there is one, and
otherwise assembled to what they mean. -/
theorem outcome_assemble_strict (source : String) :
    (assemble .strict source).outcome =
      match fault? (Token.ofSource source) with
      | some fault => .error fault
      | none => .ok (listing (Token.ofSource source)) := by
  cases found : fault? (Token.ofSource source) with
  | some fault => exact outcome_strict_of_fault found
  | none => rw [assemble_of_sound found]

end HackAssembler
