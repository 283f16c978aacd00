/-
Case mapping of whole texts: each character by its full mapping, and a capital sigma at the end
of a word to the final small sigma.
-/
import TableQuery.Text.CaseTable

namespace TableQuery.Text

def inRanges (ranges : List (Nat × Nat)) (c : Char) : Bool :=
  ranges.any fun (lo, hi) => lo ≤ c.toNat && c.toNat ≤ hi

/-- A letter with case that is not passed over. -/
def isCased (c : Char) : Bool := inRanges casedRanges c

def isCaseIgnorable (c : Char) : Bool := inRanges caseIgnorableRanges c

/-- The mapping of one character by a table of runs and a table of long forms. -/
def mapChar (runs : List CaseRun) (many : List (Nat × List Nat)) (c : Char) : List Char :=
  match runs.find? (·.covers c.toNat) with
  | some r => [Char.ofNat (c.toNat + r.shift).toNat]
  | none =>
    match many.find? (·.1 == c.toNat) with
    | some (_, cs) => cs.map Char.ofNat
    | none => [c]

def upperChar (c : Char) : List Char := mapChar upperRuns upperMany c

def lowerChar (c : Char) : List Char := mapChar lowerRuns lowerMany c

/-- Whether the first character that is not passed over is a letter with case. -/
def startsCased (cs : List Char) : Bool :=
  match cs.dropWhile isCaseIgnorable with
  | [] => false
  | c :: _ => isCased c

/-- Lowers the text after `before`, which is kept last character first. A capital sigma ends a
word if a letter with case stands before it and none after it. -/
def lowerFrom (before : List Char) : List Char → List Char
  | [] => []
  | c :: r =>
    (if c = 'Σ' then
      if startsCased before && !startsCased r then ['ς'] else ['σ']
    else lowerChar c) ++ lowerFrom (c :: before) r

def lowerChars (cs : List Char) : List Char := lowerFrom [] cs

def upperChars (cs : List Char) : List Char := cs.flatMap upperChar

def lower (s : String) : String := String.ofList (lowerChars s.toList)

def upper (s : String) : String := String.ofList (upperChars s.toList)

end TableQuery.Text
