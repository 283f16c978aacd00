/-
Pattern matching with `%` for any run of characters and `_` for any one character.
-/

namespace TableQuery.Text

/-- What is left to try when a match fails after a `%`: the pattern behind that `%`, and the text
from which its run may still grow. -/
structure Retry where
  pattern : List Char
  text : List Char

/-- A pattern character first stands for itself, also `%` for a `%` in the text; only then does
`%` open a run, which grows by one character whenever the rest fails. Of several runs only the
last one grows. The bound says that the run starts no later than the text to be matched. -/
def likeFrom (retry : Option Retry) (text pattern : List Char)
    (bound : ∀ r ∈ retry, text.length ≤ r.text.length) : Bool :=
  match text, pattern with
  | [], p => p.all (· == '%')
  | t :: ts, p :: ps =>
    if p = '_' || p = t then
      likeFrom retry ts ps fun r h => by have := bound r h; simp at this; omega
    else if p = '%' then likeFrom (some ⟨ps, t :: ts⟩) (t :: ts) ps (by simp)
    else
      match retry with
      | some ⟨q, _ :: us⟩ => likeFrom (some ⟨q, us⟩) us q (by simp)
      | _ => false
  | _ :: _, [] =>
    match retry with
    | some ⟨q, _ :: us⟩ => likeFrom (some ⟨q, us⟩) us q (by simp)
    | _ => false
termination_by ((retry.map (·.text.length)).getD (text.length + 1), pattern.length)
decreasing_by
  · cases retry with
    | none => exact .left _ _ (by simp)
    | some r => exact .right _ (by simp)
  · cases retry with
    | none => exact .left _ _ (by simp)
    | some r =>
      have h := bound r rfl
      rcases Nat.lt_or_eq_of_le h with h | h
      · exact .left _ _ (by simpa using h)
      · simp only [Option.map_some, Option.getD_some, h]
        exact .right _ (by simp)
  · exact .left _ _ (by simp)
  · exact .left _ _ (by simp)

def like (text pattern : String) : Bool :=
  likeFrom none text.toList pattern.toList (by simp)

end TableQuery.Text
