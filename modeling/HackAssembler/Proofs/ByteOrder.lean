/-!
# The order of bytes

Texts are kept as bytes, one to four for each character. The order of the bytes is the order of the
characters: a greater character has a greater first byte, or the first bytes are the same and a
later one is greater (`encoding_append_lt`). So a text that is less than another one is also less
when the bytes are compared (`bytes_lt_bytes`).
-/

set_option autoImplicit false

namespace HackAssembler.Text

/-- The bytes that a text is kept as. -/
def bytes (text : String) : List UInt8 := text.toUTF8.data.toList

theorem bytes_eq_flatMap (text : String) :
    bytes text = text.toList.flatMap String.utf8EncodeChar := by
  rw [bytes, String.toUTF8_eq_toByteArray, ← String.utf8Encode_toList, List.utf8Encode,
    List.toList_data_toByteArray]

section Bytes

variable {a b : Nat} {low high : List UInt8}

/-- The first byte decides. -/
theorem cons_lt_of_lt (less : a < b) (fits : b < 256) :
    UInt8.ofNat a :: low < UInt8.ofNat b :: high := by
  refine List.cons_lt_cons_iff.2 (Or.inl ?_)
  rw [UInt8.lt_iff_toNat_lt, UInt8.toNat_ofNat', UInt8.toNat_ofNat',
    Nat.mod_eq_of_lt (by omega), Nat.mod_eq_of_lt fits]
  exact less

/-- The first byte decides unless it is the same. -/
theorem cons_lt_of_le (least : a ≤ b) (fits : b < 256) (behind : a = b → low < high) :
    UInt8.ofNat a :: low < UInt8.ofNat b :: high := by
  rcases Nat.lt_or_eq_of_le least with less | same
  · exact cons_lt_of_lt less fits
  · rw [same]
    exact List.cons_lt_cons_iff.2 (Or.inr ⟨rfl, behind same⟩)

end Bytes

/-- The bytes of characters compare as the characters, whatever stands behind them. -/
theorem encoding_append_lt {c d : Char} (less : c < d) (after behind : List UInt8) :
    String.utf8EncodeChar c ++ after < String.utf8EncodeChar d ++ behind := by
  have values : c.val.toNat < d.val.toNat := less
  have valid : d.val.toNat < 0x110000 := by
    rcases d.valid with small | ⟨-, small⟩ <;> omega
  unfold String.utf8EncodeChar
  generalize c.val.toNat = m at values
  generalize d.val.toNat = n at values valid
  dsimp only
  -- Fewer bytes show in the first one; if there are as many, the first digit that differs decides.
  by_cases one : n ≤ 127
  · rw [if_pos one, if_pos (by omega)]
    exact cons_lt_of_lt values (by omega)
  by_cases two : n ≤ 2047
  · rw [if_neg one, if_pos two]
    split
    · exact cons_lt_of_lt (by omega) (by omega)
    · rw [if_pos (by omega)]
      refine cons_lt_of_le (by omega) (by omega) fun first => ?_
      exact cons_lt_of_lt (by omega) (by omega)
  by_cases three : n ≤ 65535
  · rw [if_neg one, if_neg two, if_pos three]
    split
    · exact cons_lt_of_lt (by omega) (by omega)
    split
    · exact cons_lt_of_lt (by omega) (by omega)
    · rw [if_pos (by omega)]
      refine cons_lt_of_le (by omega) (by omega) fun first => ?_
      refine cons_lt_of_le (by omega) (by omega) fun second => ?_
      exact cons_lt_of_lt (by omega) (by omega)
  · rw [if_neg one, if_neg two, if_neg three]
    split
    · exact cons_lt_of_lt (by omega) (by omega)
    split
    · exact cons_lt_of_lt (by omega) (by omega)
    split
    · exact cons_lt_of_lt (by omega) (by omega)
    · refine cons_lt_of_le (by omega) (by omega) fun first => ?_
      refine cons_lt_of_le (by omega) (by omega) fun second => ?_
      refine cons_lt_of_le (by omega) (by omega) fun third => ?_
      exact cons_lt_of_lt (by omega) (by omega)

theorem bytes_lt_bytes {text other : String} (less : text < other) : bytes text < bytes other := by
  have chars : text.toList < other.toList := less
  rw [bytes_eq_flatMap, bytes_eq_flatMap]
  generalize text.toList = text at chars
  generalize other.toList = other at chars
  induction text generalizing other with
  | nil =>
    cases other with
    | nil => exact absurd chars (List.lt_irrefl [])
    | cons d behind =>
      obtain ⟨first, more, encoded⟩ :=
        List.exists_cons_of_ne_nil (String.utf8EncodeChar_ne_nil (c := d))
      rw [List.flatMap_cons, encoded]
      exact List.nil_lt_cons ..
  | cons c after ih =>
    cases other with
    | nil => exact absurd chars (List.not_lt_nil _)
    | cons d behind =>
      rw [List.flatMap_cons, List.flatMap_cons]
      rcases List.cons_lt_cons_iff.1 chars with first | ⟨rfl, later⟩
      · exact encoding_append_lt first _ _
      · exact List.append_left_lt (ih behind later)

end HackAssembler.Text
