/-
Letter case among the 26 letters of ASCII; every other character stands for itself.
-/

namespace TableQuery.Text

def lowerAscii (s : String) : String := String.ofList (s.toList.map Char.toLower)

/-- Equality up to the case of ASCII letters. -/
def sameLetters (a b : String) : Bool := a.toList.map Char.toLower == b.toList.map Char.toLower

end TableQuery.Text
