import HackAssembler.Proofs.Strictness
import HackAssembler.Proofs.LabelShape

/-!
# The check for misshapen labels

Strict mode rejects a computation that opens or closes with a parenthesis when the program is laid
out. Without this check the program would be rejected all the same, when its commands are encoded,
because one part of such a text is a mnemonic that its field does not know. So the check only
decides which fault is reported (`shape_check_rejects_nothing_else`).

The two assemblies differ in their first walk only. A program that is accepted with the check has
no text that the check is about, and one that is accepted without it has none either, as all its
mnemonics are known; and on programs without such a text the two walks are the same.
-/

set_option autoImplicit false

namespace HackAssembler

/-! ## Walks that succeed -/

namespace Traced

variable {ν ε α σ : Type}

/-- In a walk that succeeds every step does. -/
theorem exists_step_of_foldl {step : σ → α → Traced ν ε σ} {state last : σ} {list : List α} {a : α}
    (walks : (foldl step state list).outcome = .ok last) (member : a ∈ list) :
    ∃ before after, (step before a).outcome = .ok after := by
  induction list generalizing state with
  | nil => contradiction
  | cons first rest ih =>
    rw [foldl_cons] at walks
    obtain ⟨next, goes, walks⟩ := bind_eq_ok_iff.1 walks
    rcases List.mem_cons.1 member with rfl | behind
    · exact ⟨state, next, goes⟩
    · exact ih walks behind

theorem exists_step_of_mapAccum {β : Type} {step : σ → α → Traced ν ε (σ × β)} {state : σ}
    {last : σ × List β} {list : List α} {a : α}
    (walks : (mapAccum step state list).outcome = .ok last) (member : a ∈ list) :
    ∃ before after, (step before a).outcome = .ok after := by
  obtain ⟨collected, walks, -⟩ := bind_eq_ok_iff.1 walks
  obtain ⟨before, after, goes⟩ := exists_step_of_foldl walks member
  obtain ⟨next, goes, -⟩ := bind_eq_ok_iff.1 goes
  exact ⟨before.1, next, goes⟩

theorem foldl_congr {step other : σ → α → Traced ν ε σ} {list : List α}
    (same : ∀ a ∈ list, ∀ state, step state a = other state a) (state : σ) :
    foldl step state list = foldl other state list := by
  induction list generalizing state with
  | nil => rfl
  | cons first rest ih =>
    have behind := ih fun a member => same a (List.mem_cons_of_mem _ member)
    rw [foldl_cons, foldl_cons, same first List.mem_cons_self]
    exact bind_congr behind

end Traced

/-! ## Assembly without the check -/

/-- Takes one token into the layout, whatever the text of a computation looks like. -/
def Layout.placeUnchecked (mode : Mode) (layout : Layout) (token : Token) : Assembly Layout :=
  match token.item with
  | .label name => layout.declare mode token.line name
  | .operation _ => pure layout.extend

/-- What is left to do for a program once it is laid out. -/
def Listing.ofLayout (mode : Mode) (tokens : List Token) (layout : Layout) : Assembly Listing := do
  let commands := tokens.filterMap Token.command?
  .note (.labelsDone commands.length layout.symbols.size)
  let (allocation, entries) ← Traced.mapAccum (Entry.ofCommand mode) (.start layout.symbols)
    commands.zipIdx
  .note (.encodingDone allocation.count)
  return ⟨entries⟩

/-- An assembly that does not ask whether a computation looks like a label. -/
def assembleUnchecked (mode : Mode) (source : String) : Assembly Listing :=
  Traced.foldl (Layout.placeUnchecked mode) .start (Token.ofSource source) >>=
    Listing.ofLayout mode (Token.ofSource source)

theorem assemble_eq (mode : Mode) (source : String) :
    assemble mode source =
      Traced.foldl (Layout.place mode) .start (Token.ofSource source) >>=
        Listing.ofLayout mode (Token.ofSource source) := rfl

/-- The token is no computation that looks like a label. -/
def Token.IsPlain (token : Token) : Prop :=
  ∀ text, token.item = .operation (.compute text) → looksLikeLabel text = false

variable {mode : Mode} {source : String} {token : Token}

theorem Layout.place_of_isPlain (plain : token.IsPlain) (layout : Layout) :
    layout.place mode token = layout.placeUnchecked mode token := by
  obtain ⟨line, statement⟩ := token
  unfold place placeUnchecked
  cases statement with
  | label name => rfl
  | operation op =>
    cases op with
    | address operand => rfl
    | compute text =>
      have shape := plain text rfl
      simp [shape, Mode.demand]

theorem Layout.isPlain_of_place {layout next : Layout}
    (placed : (layout.place .strict token).outcome = .ok next) : token.IsPlain := by
  obtain ⟨line, statement⟩ := token
  rintro text rfl
  obtain ⟨_, passes, -⟩ := Traced.bind_eq_ok_iff.1 placed
  cases shape : looksLikeLabel text with
  | false => rfl
  | true => simp [Mode.demand, shape] at passes

/-- In strict mode a computation is encoded only if all its parts are known. -/
theorem Mnemonics.unknownMnemonics_of_encode {line : Nat} {text : String}
    {instruction : Instruction}
    (encoded : ((ofText text).encode .strict line).outcome = .ok instruction) :
    Meaning.unknownMnemonics text = [] := by
  have ends := encode_ends .strict line text
  cases unknown : Meaning.unknownMnemonics text with
  | nil => rfl
  | cons part rest =>
    rw [unknown] at ends
    exact nomatch encoded.symm.trans ends

/-- Where all commands are encoded in strict mode, no computation looks like a label. -/
theorem Listing.isPlain_of_ofLayout {tokens : List Token} {layout : Layout} {listing : Listing}
    (encoded : (ofLayout .strict tokens layout).outcome = .ok listing) (member : token ∈ tokens) :
    token.IsPlain := by
  rintro text computes
  obtain ⟨_, -, encoded⟩ := Traced.bind_eq_ok_iff.1 encoded
  obtain ⟨_, walks, -⟩ := Traced.bind_eq_ok_iff.1 encoded
  have command : (⟨token.line, .compute text⟩ : Command) ∈ tokens.filterMap Token.command? := by
    refine List.mem_filterMap.2 ⟨token, member, ?_⟩
    rw [Token.command?, computes]
    rfl
  rw [← List.zipIdx_map_fst 0 (tokens.filterMap Token.command?)] at command
  obtain ⟨⟨_, place⟩, placed, rfl⟩ := List.mem_map.1 command
  obtain ⟨allocation, _, goes⟩ := Traced.exists_step_of_mapAccum walks placed
  obtain ⟨_, goes, -⟩ := Traced.bind_eq_ok_iff.1 goes
  obtain ⟨instruction, goes, -⟩ := Traced.bind_eq_ok_iff.1 goes
  rw [Bool.eq_false_iff]
  intro shape
  exact Meaning.unknownMnemonics_ne_nil shape (Mnemonics.unknownMnemonics_of_encode goes)

/-- A program without texts that look like labels is assembled in the same way. -/
theorem assembleUnchecked_of_isPlain (plain : ∀ token ∈ Token.ofSource source, token.IsPlain) :
    assembleUnchecked mode source = assemble mode source := by
  rw [assemble_eq, assembleUnchecked]
  congr 1
  exact Traced.foldl_congr (fun token member layout =>
    (Layout.place_of_isPlain (plain token member) layout).symm) Layout.start

/-- Lenient mode does not check the shape. -/
theorem assembleUnchecked_lenient (source : String) :
    assembleUnchecked .lenient source = assemble .lenient source := by
  rw [assemble_eq, assembleUnchecked]
  congr 1
  refine Traced.foldl_congr (fun token _ layout => ?_) Layout.start
  obtain ⟨line, statement⟩ := token
  cases statement with
  | label name => rfl
  | operation op => cases op <;> rfl

/-- Strict mode accepts the same sources without the check, and with the same result. -/
theorem assembleUnchecked_strict_eq_ok_iff {listing : Listing} :
    (assembleUnchecked .strict source).outcome = .ok listing ↔
      (assemble .strict source).outcome = .ok listing := by
  constructor
  · intro accepted
    obtain ⟨layout, -, encoded⟩ := Traced.bind_eq_ok_iff.1 accepted
    rwa [← assembleUnchecked_of_isPlain fun token => Listing.isPlain_of_ofLayout encoded]
  · intro accepted
    have accepted' := accepted
    rw [assemble_eq] at accepted'
    obtain ⟨layout, placed, -⟩ := Traced.bind_eq_ok_iff.1 accepted'
    rwa [assembleUnchecked_of_isPlain]
    intro token member
    obtain ⟨_, _, goes⟩ := Traced.exists_step_of_foldl placed member
    exact Layout.isPlain_of_place goes

/-! ## Warnings -/

/-- In lenient mode a part of a computation that looks like a label is replaced, with a warning. -/
theorem Meaning.mnemonicReplaced_mem_notices {tokens : List Token} {line : Nat} {text : String}
    (computes : ⟨line, .operation (.compute text)⟩ ∈ tokens) (shape : looksLikeLabel text = true) :
    ∃ part ∈ unknownMnemonics text, .mnemonicReplaced line part.1 part.2 ∈ notices tokens := by
  obtain ⟨part, unknown⟩ := List.exists_mem_of_ne_nil _ (unknownMnemonics_ne_nil shape)
  have command : (⟨line, .compute text⟩ : Command) ∈ commands tokens := mem_commands_iff.2 computes
  obtain ⟨past, found⟩ := exists_past_of_mem command
  have said : Notice.mnemonicReplaced line part.1 part.2 ∈
      commandNotices (known? tokens) past ⟨line, .compute text⟩ :=
    List.mem_map.2 ⟨part, unknown, rfl⟩
  exact ⟨part, unknown, mem_notices_iff.2 (Or.inr (Or.inr (Or.inl ⟨_, found, said⟩)))⟩

/-- A text that looks like a label has a part that its field does not know. So the check for such
texts changes nothing but the fault that strict mode reports: it accepts the same sources without
the check, with the same listings, and lenient mode does the same anyway. In lenient mode every such
line is warned of, because a part of it is replaced. -/
theorem shape_check_rejects_nothing_else :
    (∀ text, looksLikeLabel text = true →
      Field.dest.bits? (Mnemonics.ofText text).dest = none ∨
        Field.comp.bits? (Mnemonics.ofText text).comp = none ∨
        Field.jump.bits? (Mnemonics.ofText text).jump = none) ∧
    ∀ source : String,
      (∀ listing, (assembleUnchecked .strict source).outcome = .ok listing ↔
        (assemble .strict source).outcome = .ok listing) ∧
      assembleUnchecked .lenient source = assemble .lenient source ∧
      ∀ line text, ⟨line, .operation (.compute text)⟩ ∈ Token.ofSource source →
        looksLikeLabel text = true →
        ∃ part ∈ Meaning.unknownMnemonics text,
          ∃ record ∈ (assemble .lenient source).trail.map Notice.record,
            record = (Notice.mnemonicReplaced line part.1 part.2).record ∧
              record.severity = .warn := by
  refine ⟨?_, fun source => ⟨fun listing => assembleUnchecked_strict_eq_ok_iff,
    assembleUnchecked_lenient source, ?_⟩⟩
  · intro text shape
    obtain ⟨part, unknown⟩ := List.exists_mem_of_ne_nil _ (Meaning.unknownMnemonics_ne_nil shape)
    obtain ⟨among, missing⟩ := List.mem_filter.1 unknown
    rw [Option.isNone_iff_eq_none] at missing
    simp only [List.mem_cons, List.not_mem_nil, or_false] at among
    rcases among with rfl | rfl | rfl
    · exact Or.inl missing
    · exact Or.inr (Or.inl missing)
    · exact Or.inr (Or.inr missing)
  · intro line text computes shape
    obtain ⟨part, unknown, said⟩ := Meaning.mnemonicReplaced_mem_notices computes shape
    rw [trail_assemble_lenient]
    exact ⟨part, unknown, _, List.mem_map_of_mem said, rfl, rfl⟩

/-- A label that is not closed is reported as one; without the check it would be an unknown
computation. -/
theorem shape_check_rejects_nothing_else_unclosed_label :
    (assemble .strict "@0\n(LOOP").outcome = .error ⟨2, .malformedLabel "(LOOP"⟩ ∧
      (assembleUnchecked .strict "@0\n(LOOP").outcome =
        .error ⟨2, .unknownMnemonic .comp "(LOOP"⟩ ∧
      looksLikeLabel "(LOOP" = true ∧
      (Field.dest.bits? (Mnemonics.ofText "(LOOP").dest = none ∨
        Field.comp.bits? (Mnemonics.ofText "(LOOP").comp = none ∨
        Field.jump.bits? (Mnemonics.ofText "(LOOP").jump = none) ∧
      ⟨2, .operation (.compute "(LOOP")⟩ ∈ Token.ofSource "@0\n(LOOP" ∧
      ∃ part ∈ Meaning.unknownMnemonics "(LOOP",
        ∃ record ∈ (assemble .lenient "@0\n(LOOP").trail.map Notice.record,
          record = (Notice.mnemonicReplaced 2 part.1 part.2).record ∧ record.severity = .warn := by
  have shape : looksLikeLabel "(LOOP" = true := by decide
  have token : (⟨2, .operation (.compute "(LOOP")⟩ : Token) ∈ Token.ofSource "@0\n(LOOP" := by
    decide +kernel
  exact ⟨by decide +kernel, by decide +kernel, shape,
    shape_check_rejects_nothing_else.1 "(LOOP" shape, token,
    (shape_check_rejects_nothing_else.2 "@0\n(LOOP").2.2 2 "(LOOP" token shape⟩

end HackAssembler
