import HackAssembler.Text.Emoji
import HackAssembler.Text.Ligature

/-!
# Clusters

Runs of characters that are drawn as one and take as many columns as the drawing, not as many as
their characters: emoji, flags, ligatures. A text is cut into clusters from its end. A character
joins the cluster behind it if what it starts with allows that, and starts a cluster of its own
otherwise.
-/

set_option autoImplicit false

namespace HackAssembler.Text

/-- What a cluster starts with, as far as it matters for the characters before it. -/
inductive Lead where
  /-- Nothing that joins with a character before it. -/
  | plain
  | emoji
  | skinTone
  | regional (letters : Nat)
  /-- A joiner, which ties the emoji behind it to one before it. -/
  | joiner
  /-- A keycap before a joiner. -/
  | keycap
  /-- A selector of the emoji style before a joiner or a keycap. -/
  | selector
  /-- Some regional indicators before a joiner. -/
  | joinedRegional (letters : Nat)
  /-- The end of a series of tags before a joiner: some digits, and some letters behind them. -/
  | tags (digits letters : Nat)
  | alef
  | ligature (candidates : List Ligature)
  deriving Repr, DecidableEq

/-- A run of characters that are drawn as one. -/
structure Cluster where
  columns : Nat
  lead : Lead
  /-- The style that is asked of the character before the cluster. -/
  asks : Option Style
  deriving Repr, DecidableEq

namespace Cluster

def ofChar (c : Char) : Cluster :=
  if c.toNat ≤ lastPlainCode then ⟨1, .plain, none⟩
  else
    let lead : Lead :=
      if isEmoji c then .emoji
      else if isSkinTone c then .skinTone
      else if isRegional c then .regional 1
      else if isAlef c then .alef
      else match Ligature.advance c Ligature.table with
        | [] => .plain
        | candidates => .ligature candidates
    ⟨charWidth c, lead, Style.ofSelector? c⟩

/-- The cluster that a character starts, in the style that is asked of it if it has that style. -/
def start (asked : Option Style) (c : Char) : Cluster :=
  if asked = some .emoji ∧ hasStyles c = true then ⟨2, .emoji, none⟩
  else if asked = some .text ∧ isNarrowedByText c = true then ⟨1, .plain, none⟩
  else ofChar c

/--
The columns of regional indicators before a joiner. They make flags from the first one on, and a
flag that ends at the joiner is drawn with what the joiner ties it to.
-/
def regionalColumns (letters : Nat) : Nat := if letters % 2 = 0 then letters - 2 else letters

/-- A series of tags with one more tag, or with the flag, before it. -/
def joinTags (columns digits letters : Nat) (c : Char) : Option Cluster :=
  if isTagLetter c ∧ digits = 0 ∧ letters < 6 then some ⟨columns, .tags 0 (letters + 1), none⟩
  else if isTagDigit c ∧ digits < 3 ∧ letters ≤ 4 then
    some ⟨columns, .tags (digits + 1) letters, none⟩
  else if isBlackFlag c ∧ (digits = 3 ∨ digits = 0 ∧ 3 ≤ letters) then
    some ⟨columns, .emoji, none⟩
  else none

/-- What a joiner and an emoji make up with a character before them. -/
def joinEmoji (columns : Nat) (c : Char) : Option Cluster :=
  if isEmoji c then some ⟨columns, .emoji, none⟩
  else if isSkinTone c then some ⟨columns, .skinTone, none⟩
  else if isRegional c then some ⟨columns + 1, .joinedRegional 1, none⟩
  else if isKeycap c then some ⟨columns, .keycap, none⟩
  else if isTagEnd c then some ⟨columns, .tags 0 0, none⟩
  else if Style.ofSelector? c = some .emoji then some ⟨columns, .selector, none⟩
  else none

/-- What the end of some ligatures makes up with a character before it. -/
def joinLigature (columns : Nat) (candidates : List Ligature) (c : Char) : Option Cluster :=
  if Ligature.isPassed c then
    some ⟨columns, .ligature (Ligature.pass c candidates), Style.ofSelector? c⟩
  else
    match Ligature.advance c candidates with
    | [] => none
    | left =>
      match Ligature.columns? left with
      | some joined => some ⟨joined, .plain, none⟩
      | none => some ⟨columns + charWidth c, .ligature left, none⟩

/-- The cluster with one more character before it, if the character joins it. -/
def join? (c : Char) (cluster : Cluster) : Option Cluster :=
  let columns := cluster.columns
  match cluster.lead with
  | .plain => none
  | .emoji => if isJoiner c then some ⟨columns, .joiner, none⟩ else none
  | .skinTone =>
    if takesSkinTone c then some ⟨columns, .emoji, none⟩
    else if isJoiner c then some ⟨columns, .joiner, none⟩
    else none
  | .regional letters =>
    if isRegional c then some ⟨columns + 1, .regional (letters + 1), none⟩
    else if isJoiner c ∧ 2 ≤ letters then some ⟨columns, .joiner, none⟩
    else none
  | .joiner => joinEmoji columns c
  | .keycap =>
    if Style.ofSelector? c = some .emoji then some ⟨columns, .selector, none⟩ else none
  | .selector => if hasStyles c then some ⟨columns, .emoji, none⟩ else none
  | .joinedRegional letters =>
    if isRegional c then
      let rest := columns - regionalColumns letters
      some ⟨rest + regionalColumns (letters + 1), .joinedRegional (letters + 1), none⟩
    else if isJoiner c ∧ 2 ≤ letters then some ⟨columns, .joiner, none⟩
    else none
  | .tags digits letters => joinTags columns digits letters c
  | .alef =>
    if isLam c then some ⟨columns, .plain, none⟩
    else if isCursiveMark c then some ⟨columns, .alef, Style.ofSelector? c⟩
    else none
  | .ligature candidates => joinLigature columns candidates c

/-- The clusters of a text with one more character before it. -/
def prepend (c : Char) : List Cluster → List Cluster
  | [] => [ofChar c]
  | behind :: rest =>
    match behind.join? c with
    | some joined => joined :: rest
    | none => start behind.asks c :: behind :: rest

def ofText (text : List Char) : List Cluster := text.foldr prepend []

end Cluster

end HackAssembler.Text
