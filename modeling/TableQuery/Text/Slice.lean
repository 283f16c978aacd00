/-
Parts of a text by positions. A position is the number of bytes before it in UTF-8, and one inside a
character cuts nothing.
-/

namespace TableQuery.Text

def byteLength (cs : List Char) : Nat := cs.foldr (fun c n => c.utf8Size + n) 0

/-- Splits after a number of bytes, unless that would cut a character. -/
def splitAtByte? : Nat → List Char → Option (List Char × List Char)
  | 0, cs => some ([], cs)
  | _ + 1, [] => none
  | n + 1, c :: r =>
    if c.utf8Size ≤ n + 1 then (splitAtByte? (n + 1 - c.utf8Size) r).map fun (a, b) => (c :: a, b)
    else none

/-- The characters from one position up to another one. -/
def slice? (cs : List Char) (first last : Nat) : Option (List Char) := do
  let (before, _) ← splitAtByte? last cs
  let (_, part) ← splitAtByte? first before
  return part

end TableQuery.Text
