/-
The texts of the prompt.
-/

namespace TableQuery.Shell

inductive EditMode where
  | default | emacs | viNormal | viInsert
  deriving DecidableEq, Repr

namespace Prompt

def left : String := "rq"

def right : String := ""

/-- The mode in which keys are commands is marked. -/
def indicator : EditMode → String
  | .viNormal => " [N] ▸ "
  | _ => " ▸ "

/-- Stands before the second and later lines of a statement. -/
def continuation : String := "   ·· "

/-- Stands before a search in earlier input. -/
def search (failing : Bool) (term : String) : String :=
  if failing then s!"(no match: {term}) " else s!"(search: {term}) "

end Prompt

end TableQuery.Shell
