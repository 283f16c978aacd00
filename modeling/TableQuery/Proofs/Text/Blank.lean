/-
White space at the ends of a text. What is cut off are white space characters, and white space that is put at
an end is cut off again.
-/
import TableQuery.Text.Blank
import Mathlib.Data.List.TakeWhile

namespace TableQuery.Text

theorem eq_append_trimChars (cs : List Char) : ∃ front back, cs = front ++ (trimChars cs ++ back) ∧
    (∀ b ∈ front, isBlank b = true) ∧ ∀ b ∈ back, isBlank b = true := by
  refine ⟨cs.takeWhile isBlank, ((trimStart cs).reverse.takeWhile isBlank).reverse, ?_, ?_, ?_⟩
  · rw [trimChars, trimEnd, ← List.reverse_append, List.takeWhile_append_dropWhile, List.reverse_reverse,
      trimStart, List.takeWhile_append_dropWhile]
  · exact fun b hb => List.all_eq_true.1 List.all_takeWhile b hb
  · exact fun b hb => List.all_eq_true.1 List.all_takeWhile b (List.mem_reverse.1 hb)

variable {bs : List Char}

theorem trimChars_blanks_append (h : ∀ b ∈ bs, isBlank b = true) (cs : List Char) :
    trimChars (bs ++ cs) = trimChars cs := by
  rw [trimChars, trimChars, trimStart, trimStart, List.dropWhile_append_of_pos h]

theorem trimEnd_append_blanks (h : ∀ b ∈ bs, isBlank b = true) (cs : List Char) : trimEnd (cs ++ bs) = trimEnd cs := by
  rw [trimEnd, trimEnd, List.reverse_append, List.dropWhile_append_of_pos fun b hb => h b (List.mem_reverse.1 hb)]

theorem trimChars_append_blanks (h : ∀ b ∈ bs, isBlank b = true) (cs : List Char) :
    trimChars (cs ++ bs) = trimChars cs := by
  rw [trimChars, trimChars, trimStart, trimStart, List.dropWhile_append]
  split
  · rename_i hcs
    rw [List.isEmpty_iff.1 hcs, List.dropWhile_eq_nil_iff.2 h]
  · exact trimEnd_append_blanks h _

end TableQuery.Text
