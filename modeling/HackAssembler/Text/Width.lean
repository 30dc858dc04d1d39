import HackAssembler.Text.Cluster

/-!
# Display width

How many columns a text takes on a terminal: as many as its clusters together.
-/

set_option autoImplicit false

namespace HackAssembler.Text

def width (text : List Char) : Nat :=
  (Cluster.ofText text).foldr (fun cluster columns => cluster.columns + columns) 0

/-! A mark takes no column, and an ideograph takes two. -/

example : width "cafe\u0301".toList = 4 := by decide +kernel

example : width "\u6f22\u5b57".toList = 4 := by decide +kernel

/-! A selector decides between the narrow and the wide style of a character. -/

example : width "\u231a\ufe0e".toList = 1 := by decide +kernel

example : width "1\ufe0f\u20e3".toList = 2 := by decide +kernel

/-! What is drawn as one takes the columns of the drawing. -/

example : width "👍🏽".toList = 2 := by decide +kernel

example : width "👨\u200d👩\u200d👧".toList = 2 := by decide +kernel

example : width "\u0644\u0627".toList = 1 := by decide +kernel

example : width "\u2d4f\u2d7f\u2d3e".toList = 1 := by decide +kernel

end HackAssembler.Text
