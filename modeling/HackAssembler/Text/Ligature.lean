import HackAssembler.Text.CharWidth

/-!
# Ligatures

Letters that some scripts draw as one. A ligature is read from its end, because the end tells
whether there may be one. Characters that are not drawn may stand anywhere within it.
-/

set_option autoImplicit false

namespace HackAssembler.Text

/-- What is left to read of a ligature, from its end to its beginning, and its width. -/
structure Ligature where
  left : List (List CodeRange)
  columns : Nat
  deriving Repr, DecidableEq

namespace Ligature

/-- The zero width joiner, where a ligature needs one. -/
def joiner : List CodeRange := [.only 0x200D]

def tifinagh : List CodeRange := [⟨0x2D31, 0x2D65⟩, .only 0x2D6F]

/-- The Khmer letters that are drawn below others, without a column, behind the sign coeng. -/
def khmer : List CodeRange :=
  [⟨0x1780, 0x1782⟩, ⟨0x1784, 0x1787⟩, ⟨0x1789, 0x178C⟩, ⟨0x178E, 0x1793⟩, ⟨0x1795, 0x1798⟩,
    ⟨0x179B, 0x179D⟩, .only 0x17A0, .only 0x17A2, .only 0x17A7, ⟨0x17AB, 0x17AC⟩, .only 0x17AF]

/--
The ligatures of Hebrew (alef and lamed), Khmer (coeng and a letter), Buginese (a, i and ya),
Tifinagh (two consonants, tied by a joiner or by the consonant joiner), Lisu (two tone letters) and
Old Turkic (ec and i).
-/
def table : List Ligature :=
  [⟨[[.only 0x05DC], joiner, [.only 0x05D0]], 1⟩,
    ⟨[khmer, [.only 0x17D2]], 0⟩,
    ⟨[[.only 0x1A10], joiner, [.only 0x1A17], [.only 0x1A15]], 1⟩,
    ⟨[tifinagh, joiner, tifinagh], 1⟩,
    ⟨[tifinagh, [.only 0x2D7F], tifinagh], 1⟩,
    ⟨[[⟨0xA4FC, 0xA4FD⟩], [⟨0xA4F8, 0xA4FB⟩]], 1⟩,
    ⟨[[.only 0x10C03], joiner, [.only 0x10C32]], 1⟩]

/-- What is left of a ligature before a character that belongs to it. -/
def advance? (c : Char) (ligature : Ligature) : Option Ligature :=
  match ligature.left with
  | letters :: left => if CodeRange.anyHolds letters c then some ⟨left, ligature.columns⟩ else none
  | [] => none

/-- The ligatures that some characters may turn into, after one more character before them. -/
def advance (c : Char) (ligatures : List Ligature) : List Ligature :=
  ligatures.filterMap (advance? c)

/-- The ligatures that some characters may turn into, after a character that is not drawn. -/
def pass (c : Char) (ligatures : List Ligature) : List Ligature :=
  ligatures.map fun ligature => (advance? c ligature).getD ligature

/-- The width of a ligature that is complete, if there is one. -/
def columns? (ligatures : List Ligature) : Option Nat :=
  (ligatures.find? (·.left.isEmpty)).map Ligature.columns

/-- Whether a character is not drawn, and may stand anywhere within a ligature of the table. -/
def isPassed (c : Char) : Bool :=
  CodeRange.anyHolds
    [.only 0x034F, ⟨0x17B4, 0x17B5⟩, ⟨0x180B, 0x180D⟩, .only 0x180F, .only 0x200D,
      ⟨0xFE00, 0xFE0F⟩, ⟨0xE0100, 0xE01EF⟩] c

end Ligature

/-- Whether a character is one of the forms of the Arabic letter alef. -/
def isAlef (c : Char) : Bool :=
  CodeRange.anyHolds
    [⟨0x0622, 0x0623⟩, .only 0x0625, .only 0x0627, ⟨0x0671, 0x0673⟩, .only 0x0675,
      ⟨0x0773, 0x0774⟩, ⟨0x0870, 0x0882⟩] c

/-- Whether a character is one of the forms of the Arabic letter lam, which is drawn with alef. -/
def isLam (c : Char) : Bool :=
  CodeRange.anyHolds
    [.only 0x0644, ⟨0x06B5, 0x06B8⟩, .only 0x076A, .only 0x08A6, .only 0x08C7] c

/-- The code points without a column whose property `Joining_Type` is not transparent. -/
def cursiveBreakTable : List CodeRange :=
  [.only 0x0605, ⟨0x0890, 0x0891⟩, .only 0x08E2, .only 0x09BE, .only 0x09D7, .only 0x0B3E,
    .only 0x0B57, .only 0x0BBE, .only 0x0BD7, .only 0x0CC0, .only 0x0CC2, ⟨0x0CC7, 0x0CC8⟩,
    ⟨0x0CCA, 0x0CCB⟩, ⟨0x0CD5, 0x0CD6⟩, .only 0x0D3E, .only 0x0D4E, .only 0x0D57, .only 0x0DCF,
    .only 0x0DDF, ⟨0x1160, 0x11FF⟩, .only 0x180E, .only 0x1B35, .only 0x1B3B, .only 0x1B3D,
    .only 0x1B43, ⟨0x200C, 0x200D⟩, ⟨0x2065, 0x2069⟩, ⟨0x302E, 0x302F⟩, .only 0x3164, .only 0xA8FA,
    ⟨0xD7B0, 0xD7C6⟩, ⟨0xD7CB, 0xD7FB⟩, ⟨0xFF9E, 0xFFA0⟩, ⟨0xFFF0, 0xFFF8⟩, ⟨0x111C2, 0x111C3⟩,
    .only 0x1133E, .only 0x11357, .only 0x114B0, .only 0x114BD, .only 0x115AF, .only 0x11930,
    .only 0x1193F, .only 0x11941, .only 0x11A3A, ⟨0x11A84, 0x11A89⟩, .only 0x11D46, .only 0x11F02,
    .only 0x1D165, ⟨0x1D16E, 0x1D172⟩, .only 0xE0000, ⟨0xE0002, 0xE001F⟩, ⟨0xE0080, 0xE00FF⟩,
    ⟨0xE01F0, 0xE0FFF⟩]

example :
    CodeRange.count cursiveBreakTable = 4067 ∧ CodeRange.ascending cursiveBreakTable = true := by
  decide +kernel

/-- Whether a character has no column and leaves the letters around it joined in cursive script. -/
def isCursiveMark (c : Char) : Bool :=
  charWidth c == 0 && !CodeRange.anyHolds cursiveBreakTable c

end HackAssembler.Text
