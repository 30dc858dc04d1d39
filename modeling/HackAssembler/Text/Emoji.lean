import HackAssembler.Text.CodeRange

/-!
# Emoji

The characters from which emoji are put together: emoji proper, characters with both a text style
and an emoji style and the selectors between the two, skin tones and what takes them, regional
indicators, which make flags two by two, and tags, which make the flag of a region behind a black
flag. A zero width joiner ties emoji into one.
-/

set_option autoImplicit false

namespace HackAssembler.Text

/--
The code points whose property `Emoji_Presentation` holds and that are complete emoji: neither
regional indicators nor skin tones.
-/
def emojiTable : List CodeRange :=
  [⟨0x231A, 0x231B⟩, ⟨0x23E9, 0x23EC⟩, .only 0x23F0, .only 0x23F3, ⟨0x25FD, 0x25FE⟩,
    ⟨0x2614, 0x2615⟩, ⟨0x2648, 0x2653⟩, .only 0x267F, .only 0x2693, .only 0x26A1, ⟨0x26AA, 0x26AB⟩,
    ⟨0x26BD, 0x26BE⟩, ⟨0x26C4, 0x26C5⟩, .only 0x26CE, .only 0x26D4, .only 0x26EA, ⟨0x26F2, 0x26F3⟩,
    .only 0x26F5, .only 0x26FA, .only 0x26FD, .only 0x2705, ⟨0x270A, 0x270B⟩, .only 0x2728,
    .only 0x274C, .only 0x274E, ⟨0x2753, 0x2755⟩, .only 0x2757, ⟨0x2795, 0x2797⟩, .only 0x27B0,
    .only 0x27BF, ⟨0x2B1B, 0x2B1C⟩, .only 0x2B50, .only 0x2B55, .only 0x1F004, .only 0x1F0CF,
    .only 0x1F18E, ⟨0x1F191, 0x1F19A⟩, .only 0x1F201, .only 0x1F21A, .only 0x1F22F,
    ⟨0x1F232, 0x1F236⟩, ⟨0x1F238, 0x1F23A⟩, ⟨0x1F250, 0x1F251⟩, ⟨0x1F300, 0x1F320⟩,
    ⟨0x1F32D, 0x1F335⟩, ⟨0x1F337, 0x1F37C⟩, ⟨0x1F37E, 0x1F393⟩, ⟨0x1F3A0, 0x1F3CA⟩,
    ⟨0x1F3CF, 0x1F3D3⟩, ⟨0x1F3E0, 0x1F3F0⟩, .only 0x1F3F4, ⟨0x1F3F8, 0x1F3FA⟩, ⟨0x1F400, 0x1F43E⟩,
    .only 0x1F440, ⟨0x1F442, 0x1F4FC⟩, ⟨0x1F4FF, 0x1F53D⟩, ⟨0x1F54B, 0x1F54E⟩, ⟨0x1F550, 0x1F567⟩,
    .only 0x1F57A, ⟨0x1F595, 0x1F596⟩, .only 0x1F5A4, ⟨0x1F5FB, 0x1F64F⟩, ⟨0x1F680, 0x1F6C5⟩,
    .only 0x1F6CC, ⟨0x1F6D0, 0x1F6D2⟩, ⟨0x1F6D5, 0x1F6D7⟩, ⟨0x1F6DC, 0x1F6DF⟩, ⟨0x1F6EB, 0x1F6EC⟩,
    ⟨0x1F6F4, 0x1F6FC⟩, ⟨0x1F7E0, 0x1F7EB⟩, .only 0x1F7F0, ⟨0x1F90C, 0x1F93A⟩, ⟨0x1F93C, 0x1F945⟩,
    ⟨0x1F947, 0x1F9FF⟩, ⟨0x1FA70, 0x1FA7C⟩, ⟨0x1FA80, 0x1FA88⟩, ⟨0x1FA90, 0x1FABD⟩,
    ⟨0x1FABF, 0x1FAC5⟩, ⟨0x1FACE, 0x1FADB⟩, ⟨0x1FAE0, 0x1FAE8⟩, ⟨0x1FAF0, 0x1FAF8⟩]

example : CodeRange.count emojiTable = 1174 ∧ CodeRange.ascending emojiTable = true := by
  decide +kernel

/-- The code points that have both a text style and an emoji style. -/
def styledTable : List CodeRange :=
  [.only 0x0023, .only 0x002A, ⟨0x0030, 0x0039⟩, .only 0x00A9, .only 0x00AE, .only 0x203C,
    .only 0x2049, .only 0x2122, .only 0x2139, ⟨0x2194, 0x2199⟩, ⟨0x21A9, 0x21AA⟩, ⟨0x231A, 0x231B⟩,
    .only 0x2328, .only 0x23CF, ⟨0x23E9, 0x23F3⟩, ⟨0x23F8, 0x23FA⟩, .only 0x24C2, ⟨0x25AA, 0x25AB⟩,
    .only 0x25B6, .only 0x25C0, ⟨0x25FB, 0x25FE⟩, ⟨0x2600, 0x2604⟩, .only 0x260E, .only 0x2611,
    ⟨0x2614, 0x2615⟩, .only 0x2618, .only 0x261D, .only 0x2620, ⟨0x2622, 0x2623⟩, .only 0x2626,
    .only 0x262A, ⟨0x262E, 0x262F⟩, ⟨0x2638, 0x263A⟩, .only 0x2640, .only 0x2642, ⟨0x2648, 0x2653⟩,
    ⟨0x265F, 0x2660⟩, .only 0x2663, ⟨0x2665, 0x2666⟩, .only 0x2668, .only 0x267B, ⟨0x267E, 0x267F⟩,
    ⟨0x2692, 0x2697⟩, .only 0x2699, ⟨0x269B, 0x269C⟩, ⟨0x26A0, 0x26A1⟩, .only 0x26A7,
    ⟨0x26AA, 0x26AB⟩, ⟨0x26B0, 0x26B1⟩, ⟨0x26BD, 0x26BE⟩, ⟨0x26C4, 0x26C5⟩, .only 0x26C8,
    ⟨0x26CE, 0x26CF⟩, .only 0x26D1, ⟨0x26D3, 0x26D4⟩, ⟨0x26E9, 0x26EA⟩, ⟨0x26F0, 0x26F5⟩,
    ⟨0x26F7, 0x26FA⟩, .only 0x26FD, .only 0x2702, .only 0x2705, ⟨0x2708, 0x270D⟩, .only 0x270F,
    .only 0x2712, .only 0x2714, .only 0x2716, .only 0x271D, .only 0x2721, .only 0x2728,
    ⟨0x2733, 0x2734⟩, .only 0x2744, .only 0x2747, .only 0x274C, .only 0x274E, ⟨0x2753, 0x2755⟩,
    .only 0x2757, ⟨0x2763, 0x2764⟩, ⟨0x2795, 0x2797⟩, .only 0x27A1, .only 0x27B0, .only 0x27BF,
    ⟨0x2934, 0x2935⟩, ⟨0x2B05, 0x2B07⟩, ⟨0x2B1B, 0x2B1C⟩, .only 0x2B50, .only 0x2B55, .only 0x3030,
    .only 0x303D, .only 0x3297, .only 0x3299, .only 0x1F004, ⟨0x1F170, 0x1F171⟩, ⟨0x1F17E, 0x1F17F⟩,
    .only 0x1F202, .only 0x1F21A, .only 0x1F22F, .only 0x1F237, ⟨0x1F30D, 0x1F30F⟩, .only 0x1F315,
    .only 0x1F31C, .only 0x1F321, ⟨0x1F324, 0x1F32C⟩, .only 0x1F336, .only 0x1F378, .only 0x1F37D,
    .only 0x1F393, ⟨0x1F396, 0x1F397⟩, ⟨0x1F399, 0x1F39B⟩, ⟨0x1F39E, 0x1F39F⟩, .only 0x1F3A7,
    ⟨0x1F3AC, 0x1F3AE⟩, .only 0x1F3C2, .only 0x1F3C4, .only 0x1F3C6, ⟨0x1F3CA, 0x1F3CE⟩,
    ⟨0x1F3D4, 0x1F3E0⟩, .only 0x1F3ED, .only 0x1F3F3, .only 0x1F3F5, .only 0x1F3F7, .only 0x1F408,
    .only 0x1F415, .only 0x1F41F, .only 0x1F426, .only 0x1F43F, ⟨0x1F441, 0x1F442⟩,
    ⟨0x1F446, 0x1F449⟩, ⟨0x1F44D, 0x1F44E⟩, .only 0x1F453, .only 0x1F46A, .only 0x1F47D,
    .only 0x1F4A3, .only 0x1F4B0, .only 0x1F4B3, .only 0x1F4BB, .only 0x1F4BF, .only 0x1F4CB,
    .only 0x1F4DA, .only 0x1F4DF, ⟨0x1F4E4, 0x1F4E6⟩, ⟨0x1F4EA, 0x1F4ED⟩, .only 0x1F4F7,
    ⟨0x1F4F9, 0x1F4FB⟩, .only 0x1F4FD, .only 0x1F508, .only 0x1F50D, ⟨0x1F512, 0x1F513⟩,
    ⟨0x1F549, 0x1F54A⟩, ⟨0x1F550, 0x1F567⟩, ⟨0x1F56F, 0x1F570⟩, ⟨0x1F573, 0x1F579⟩, .only 0x1F587,
    ⟨0x1F58A, 0x1F58D⟩, .only 0x1F590, .only 0x1F5A5, .only 0x1F5A8, ⟨0x1F5B1, 0x1F5B2⟩,
    .only 0x1F5BC, ⟨0x1F5C2, 0x1F5C4⟩, ⟨0x1F5D1, 0x1F5D3⟩, ⟨0x1F5DC, 0x1F5DE⟩, .only 0x1F5E1,
    .only 0x1F5E3, .only 0x1F5E8, .only 0x1F5EF, .only 0x1F5F3, .only 0x1F5FA, .only 0x1F610,
    .only 0x1F687, .only 0x1F68D, .only 0x1F691, .only 0x1F694, .only 0x1F698, .only 0x1F6AD,
    .only 0x1F6B2, ⟨0x1F6B9, 0x1F6BA⟩, .only 0x1F6BC, .only 0x1F6CB, ⟨0x1F6CD, 0x1F6CF⟩,
    ⟨0x1F6E0, 0x1F6E5⟩, .only 0x1F6E9, .only 0x1F6F0, .only 0x1F6F3]

example : CodeRange.count styledTable = 371 ∧ CodeRange.ascending styledTable = true := by
  decide +kernel

/-- The code points that take a skin tone: those with the property `Emoji_Modifier_Base`. -/
def modifierBaseTable : List CodeRange :=
  [.only 0x261D, .only 0x26F9, ⟨0x270A, 0x270D⟩, .only 0x1F385, ⟨0x1F3C2, 0x1F3C4⟩, .only 0x1F3C7,
    ⟨0x1F3CA, 0x1F3CC⟩, ⟨0x1F442, 0x1F443⟩, ⟨0x1F446, 0x1F450⟩, ⟨0x1F466, 0x1F478⟩, .only 0x1F47C,
    ⟨0x1F481, 0x1F483⟩, ⟨0x1F485, 0x1F487⟩, .only 0x1F48F, .only 0x1F491, .only 0x1F4AA,
    ⟨0x1F574, 0x1F575⟩, .only 0x1F57A, .only 0x1F590, ⟨0x1F595, 0x1F596⟩, ⟨0x1F645, 0x1F647⟩,
    ⟨0x1F64B, 0x1F64F⟩, .only 0x1F6A3, ⟨0x1F6B4, 0x1F6B6⟩, .only 0x1F6C0, .only 0x1F6CC,
    .only 0x1F90C, .only 0x1F90F, ⟨0x1F918, 0x1F91F⟩, .only 0x1F926, ⟨0x1F930, 0x1F939⟩,
    ⟨0x1F93C, 0x1F93E⟩, .only 0x1F977, ⟨0x1F9B5, 0x1F9B6⟩, ⟨0x1F9B8, 0x1F9B9⟩, .only 0x1F9BB,
    ⟨0x1F9CD, 0x1F9CF⟩, ⟨0x1F9D1, 0x1F9DD⟩, ⟨0x1FAC3, 0x1FAC5⟩, ⟨0x1FAF0, 0x1FAF8⟩]

example :
    CodeRange.count modifierBaseTable = 134 ∧ CodeRange.ascending modifierBaseTable = true := by
  decide +kernel

/-- Whether a character is drawn as an emoji if nothing else is asked for. -/
def isEmoji (c : Char) : Bool := CodeRange.anyHolds emojiTable c

def hasStyles (c : Char) : Bool := CodeRange.anyHolds styledTable c

/-- Whether a character is an ideograph in a frame, which is wide in every style. -/
def isFramedIdeograph (c : Char) : Bool := CodeRange.holds ⟨0x1F200, 0x1F2FF⟩ c

/-- Whether a character is an emoji that gets narrow in the text style. -/
def isNarrowedByText (c : Char) : Bool := isEmoji c && hasStyles c && !isFramedIdeograph c

def takesSkinTone (c : Char) : Bool := CodeRange.anyHolds modifierBaseTable c

/-- Whether a character is a skin tone, a modifier of the emoji before it. -/
def isSkinTone (c : Char) : Bool := CodeRange.holds ⟨0x1F3FB, 0x1F3FF⟩ c

/-- Whether a character is a regional indicator; two of them are a flag. -/
def isRegional (c : Char) : Bool := CodeRange.holds ⟨0x1F1E6, 0x1F1FF⟩ c

def isTagLetter (c : Char) : Bool := CodeRange.holds ⟨0xE0061, 0xE007A⟩ c

def isTagDigit (c : Char) : Bool := CodeRange.holds ⟨0xE0030, 0xE0039⟩ c

/-- Whether a character is the tag that ends a series of tags. -/
def isTagEnd (c : Char) : Bool := decide (c.toNat = 0xE007F)

/-- Whether a character is the black flag, which a series of tags follows. -/
def isBlackFlag (c : Char) : Bool := decide (c.toNat = 0x1F3F4)

/-- Whether a character draws a key around the character before it. -/
def isKeycap (c : Char) : Bool := decide (c.toNat = 0x20E3)

def isJoiner (c : Char) : Bool := decide (c.toNat = 0x200D)

/-- The way in which a character with styles is drawn. -/
inductive Style where
  | text
  | emoji
  deriving Repr, DecidableEq

/-- The style that a selector asks of the character before it. -/
def Style.ofSelector? (c : Char) : Option Style :=
  if c.toNat = 0xFE0E then some text
  else if c.toNat = 0xFE0F then some emoji
  else none

end HackAssembler.Text
