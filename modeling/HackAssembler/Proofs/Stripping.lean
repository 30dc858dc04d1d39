import HackAssembler.Statement
import Mathlib.Data.List.DropRight
import Mathlib.Data.List.Induction
import Mathlib.Data.List.Infix

/-!
# Lines without comments and outer blanks

What is left of a line when its comment and the blanks around it are gone is left as it is when the
same is done again: it holds no comment, and it does not start or end with a blank. The statement
that it makes is written in just this way (`toList_text_of_ofStripped?`), so every statement of a
source is read back from its own text.
-/

set_option autoImplicit false

namespace HackAssembler

namespace Text

variable {text : List Char} {c : Char}

theorem trim_eq_rdropWhile (text : List Char) :
    trim text = (text.dropWhile isBlank).rdropWhile isBlank := rfl

theorem trim_isInfix (text : List Char) : trim text <:+: text := by
  rw [trim_eq_rdropWhile]
  exact (List.rdropWhile_prefix isBlank _).isInfix.trans (List.dropWhile_suffix isBlank).isInfix

/-- What has no blank at its ends is left alone. -/
theorem trim_eq_self_of_ends (head : ∀ c, text.head? = some c → isBlank c = false)
    (last : ∀ c, text.getLast? = some c → isBlank c = false) : trim text = text := by
  have left : text.dropWhile isBlank = text := by
    cases text with
    | nil => rfl
    | cons c rest => rw [List.dropWhile_cons_of_neg (by simp [head c rfl])]
  rw [trim_eq_rdropWhile, left, List.rdropWhile_eq_self_iff]
  intro filled
  rw [last _ (List.getLast?_eq_some_getLast filled)]
  exact Bool.false_ne_true

theorem isBlank_of_getLast?_trim (last : (trim text).getLast? = some c) : isBlank c = false := by
  rw [trim_eq_rdropWhile] at last
  have filled : (text.dropWhile isBlank).rdropWhile isBlank ≠ [] := by
    intro empty
    rw [empty] at last
    contradiction
  rw [List.getLast?_eq_some_getLast filled, Option.some.injEq] at last
  rw [← last]
  exact Bool.eq_false_iff.2 (List.rdropWhile_last_not isBlank _ filled)

theorem isBlank_of_head?_trim (head : (trim text).head? = some c) : isBlank c = false := by
  have start : (text.dropWhile isBlank).head? = some c := by
    obtain ⟨rest, whole⟩ := List.rdropWhile_prefix isBlank (text.dropWhile isBlank)
    rw [← whole, List.head?_append, ← trim_eq_rdropWhile, head, Option.some_or]
  have solid := List.head?_dropWhile_not isBlank text
  rw [start] at solid
  simpa using solid

theorem trim_trim (text : List Char) : trim (trim text) = trim text :=
  trim_eq_self_of_ends (fun _ => isBlank_of_head?_trim) (fun _ => isBlank_of_getLast?_trim)

theorem trim_concat_of_isBlank (blank : isBlank c = true) (text : List Char) :
    trim (text ++ [c]) = trim text := by
  rw [trim_eq_rdropWhile, trim_eq_rdropWhile, List.dropWhile_append]
  by_cases empty : (text.dropWhile isBlank).isEmpty
  · rw [if_pos empty, List.isEmpty_iff.1 empty]
    simp [blank]
  · rw [if_neg empty, List.rdropWhile_concat_pos isBlank _ _ blank]

/-- Blanks around a text make no difference. -/
theorem trim_append_blanks {before after : List Char} (front : ∀ c ∈ before, isBlank c = true)
    (back : ∀ c ∈ after, isBlank c = true) (text : List Char) :
    trim (before ++ text ++ after) = trim text := by
  induction after using List.reverseRecOn with
  | nil =>
    rw [List.append_nil, trim_eq_rdropWhile, List.dropWhile_append_of_pos front,
      trim_eq_rdropWhile]
  | append_singleton after last ih =>
    rw [← List.append_assoc, trim_concat_of_isBlank (back last (by simp))]
    exact ih fun c found => back c (List.mem_append_left _ found)

end Text

namespace Statement

open Text

variable {line text : List Char} {c : Char}

theorem beforeComment_isPrefix (line : List Char) : beforeComment line <+: line := by
  fun_induction beforeComment line with
  | case1 => exact List.prefix_rfl
  | case2 rest => exact List.nil_prefix
  | case3 c rest apart ih => exact (List.prefix_cons_inj c).2 ih

/-- What stands before the comment holds no slash behind a slash. -/
theorem not_infix_beforeComment (line : List Char) : ¬ ['/', '/'] <:+: beforeComment line := by
  fun_induction beforeComment line with
  | case1 => simp
  | case2 rest => simp
  | case3 c rest apart ih =>
    rw [List.infix_cons_iff, not_or]
    refine ⟨?_, ih⟩
    rintro ⟨more, whole⟩
    obtain ⟨rfl, cut⟩ := List.cons.inj whole
    obtain ⟨others, same⟩ := beforeComment_isPrefix rest
    rw [← cut] at same
    exact apart (more ++ others) rfl same.symm

theorem beforeComment_eq_self_of_not_infix (clean : ¬ ['/', '/'] <:+: text) :
    beforeComment text = text := by
  fun_induction beforeComment text with
  | case1 => rfl
  | case2 rest => exact absurd (List.prefix_append ['/', '/'] rest).isInfix clean
  | case3 c rest apart ih =>
    rw [ih fun found => clean (found.trans (List.suffix_cons c rest).isInfix)]

theorem not_infix_strip (line : List Char) : ¬ ['/', '/'] <:+: strip line := fun found =>
  not_infix_beforeComment line (found.trans (trim_isInfix _))

theorem strip_strip (line : List Char) : strip (strip line) = strip line := by
  rw [strip, beforeComment_eq_self_of_not_infix (not_infix_strip line), strip, trim_trim]

/-- Another character at the end is part of the comment, if there is one. -/
theorem beforeComment_concat (slash : c ≠ '/') (line : List Char) :
    beforeComment (line ++ [c]) = beforeComment line ∨
      beforeComment (line ++ [c]) = beforeComment line ++ [c] := by
  fun_induction beforeComment line with
  | case1 => exact Or.inr (by simp [beforeComment])
  | case2 rest => exact Or.inl rfl
  | case3 first rest apart ih =>
    have kept : beforeComment (first :: rest ++ [c]) = first :: beforeComment (rest ++ [c]) := by
      rw [List.cons_append, beforeComment]
      intro more start behind
      cases rest with
      | nil => exact slash (List.cons.inj behind).1
      | cons next others => exact apart others start (by rw [(List.cons.inj behind).1])
    rw [kept]
    rcases ih with cut | whole
    · exact Or.inl (by rw [cut])
    · exact Or.inr (by rw [whole, List.cons_append])

/-- A blank at the end of a line makes no difference. -/
theorem strip_concat_of_isBlank (blank : isBlank c = true) (line : List Char) :
    strip (line ++ [c]) = strip line := by
  have slash : c ≠ '/' := by
    rintro rfl
    contradiction
  rw [strip, strip]
  rcases beforeComment_concat slash line with cut | whole
  · rw [cut]
  · rw [whole, trim_concat_of_isBlank blank]

theorem mem_of_mem_strip (found : c ∈ strip line) : c ∈ line :=
  (beforeComment_isPrefix line).subset ((trim_isInfix _).subset found)

/-- The name of a label stands between two parentheses, and is neither empty nor spread over two
lines. -/
theorem labelName?_eq_some_iff {name : List Char} :
    labelName? text = some name ↔ text = '(' :: (name ++ [')']) ∧ name ≠ [] ∧ '\n' ∉ name := by
  constructor
  · intro found
    unfold labelName? at found
    split at found
    · split at found
      · rename_i enclosed
        obtain rfl := Option.some.inj found
        exact ⟨by rw [List.dropLast_append_getLast? _ enclosed.1], enclosed.2⟩
      · contradiction
    · contradiction
  · rintro ⟨rfl, filled, clean⟩
    simp [labelName?, filled, clean]

/-- A statement is written as the text that it was read from. -/
theorem toList_text_of_ofStripped? {statement : Statement}
    (read : ofStripped? text = some statement) : statement.text.toList = text := by
  unfold ofStripped? at read
  split at read
  · rename_i name found
    obtain rfl := Option.some.inj read
    rw [(labelName?_eq_some_iff.1 found).1]
    simp [Statement.text]
  · split at read
    · contradiction
    · obtain rfl := Option.some.inj read
      simp [Statement.text, Operation.text]
    · obtain rfl := Option.some.inj read
      simp [Statement.text, Operation.text]

end Statement

end HackAssembler
