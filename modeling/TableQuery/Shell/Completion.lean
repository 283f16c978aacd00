/-
Suggestions for the word before the cursor: tables and files behind `FROM`, else columns,
functions and keywords. A candidate fits if the letters of the word occur in it in order.
Positions in a line are counted in bytes.
-/
import TableQuery.Function
import TableQuery.Shell.Keyword
import TableQuery.Text.Blank
import TableQuery.Text.Slice

namespace TableQuery.Shell

/-! ## Matching -/

structure FuzzyMatch where
  /-- A number of 32 bits, for patterns of at most `715827880` letters (`fuzzyMatch_score_range`). -/
  score : Int
  /-- The places of the matched letters in the candidate in lower case. -/
  indices : List Nat
  deriving DecidableEq

/-- Matches each letter of the pattern with the next equal one. Letters in a row score three, other
letters one, and the first letter of the candidate five more. -/
def fuzzyFrom (place : Nat) (inRow : Bool) : List Char → List Char → Option FuzzyMatch
  | [], _ => some ⟨0, []⟩
  | _ :: _, [] => none
  | p :: ps, c :: cs =>
    if c = p then
      (fuzzyFrom (place + 1) true ps cs).map fun m =>
        ⟨m.score + (if inRow then 3 else 1) + (if place = 0 then 5 else 0), place :: m.indices⟩
    else fuzzyFrom (place + 1) false (p :: ps) cs

/-- Letters match in any case. -/
def fuzzyMatch (pattern candidate : String) : Option FuzzyMatch :=
  fuzzyFrom 0 false (Text.lowerChars pattern.toList) (Text.lowerChars candidate.toList)

/-! ## Positions -/

/-- The characters before the last one with a property. -/
def beforeLast? (p : Char → Bool) : List Char → Option (List Char)
  | [] => none
  | c :: r =>
    match beforeLast? p r with
    | some before => some (c :: before)
    | none => if p c then some [] else none

/-- The place of the last occurrence of a text. -/
def lastPlace? (pattern : List Char) : List Char → Option Nat
  | [] => if pattern.isEmpty then some 0 else none
  | c :: r =>
    match lastPlace? pattern r with
    | some i => some (i + 1)
    | none => if pattern.isPrefixOf (c :: r) then some 0 else none

/-! ## What is completed -/

inductive Place where
  | table | column | command
  deriving DecidableEq, Repr

/-- Tables are asked for behind the last `FROM`, unless a later clause asks for columns. -/
def placeOf (before : List Char) : Place :=
  let upper := before.map Char.toUpper
  if (Text.trimStart upper).head? = some '.' then .command
  else
    let last (word : String) : Option Nat := lastPlace? word.toList upper
    match last "FROM ", (["SELECT ", "WHERE ", "BY ", "HAVING "].filterMap last).max? with
    | some t, some c => if c < t then .table else .column
    | some _, none => .table
    | none, _ => .column

structure TableSize where
  name : String
  rows : Nat
  cols : Nat

/-- What there is to be suggested. -/
structure Known where
  columns : List String := []
  tables : List TableSize := []
  files : List String := []

structure Suggestion where
  value : String
  description : String
  /-- The bytes that the value stands for. -/
  first : Nat
  last : Nat
  indices : List Nat
  deriving DecidableEq

/-- The commands with what they do. -/
def commands : List (String × String) :=
  [(".mode", "Set output format: table|csv|json"), (".tables", "List stored tables"),
    (".timer", "Show query time: on|off"), (".help", "Show available commands"),
    (".quit", "Exit the REPL")]

/-- A call that reads a file. -/
def readCall (file : String) : String := "read_csv('" ++ file ++ "')"

def tableCandidates (k : Known) : List (String × String) :=
  k.tables.map (fun t => (t.name, s!"{t.rows} rows, {t.cols} cols")) ++
    (k.files.filter fun f => ".csv".toList.isSuffixOf f.toList).map fun f => (readCall f, "csv file")

def columnCandidates (k : Known) : List (String × String) :=
  k.columns.map (·, "column") ++
    Function.callableNames.map (fun f =>
      (f, if Function.isAggregateName f then "aggregate" else "function")) ++
    keywords.map (·, "keyword")

/-! ## Suggestions -/

/-- The candidates that fit, with their scores. -/
def fitting (word : String) (first last : Nat) (candidates : List (String × String)) :
    List (Int × Suggestion) :=
  candidates.filterMap fun (value, description) =>
    (fuzzyMatch word value).map fun m => (m.score, ⟨value, description, first, last, m.indices⟩)

/-- Separates words. -/
def isSeparator (c : Char) : Bool := Text.isBlank c || c = ',' || c = '('

/-- The position of the last period. -/
def commandStart (before : List Char) : Nat :=
  match beforeLast? (· == '.') before with
  | some s => Text.byteLength s
  | none => 0

/-- The position behind the first byte of the last separator. -/
def wordStart (before : List Char) : Nat :=
  match beforeLast? isSeparator before with
  | some s => Text.byteLength s + 1
  | none => 0

/-- Commands are suggested in their own order from the last period on. -/
def completeCommand (before : List Char) : Option (List Suggestion) := do
  let start := commandStart before
  let word ← Text.slice? before start (Text.byteLength before)
  return (fitting (String.ofList word) start (Text.byteLength before) commands).map (·.2)

/-- Better matches come first. -/
def completeWord (candidates : List (String × String)) (before : List Char) : Option (List Suggestion) := do
  let start := wordStart before
  let word ← Text.slice? before start (Text.byteLength before)
  if word.isEmpty then return []
  let found := fitting (String.ofList word) start (Text.byteLength before) candidates
  return (found.mergeSort fun a b => b.1 ≤ a.1).map (·.2)

/-- The suggestions at a position. There are none if the position or the start of the word is inside a
character. -/
def complete (k : Known) (line : String) (position : Nat) : Option (List Suggestion) := do
  let before ← Text.slice? line.toList 0 position
  match placeOf before with
  | .command => completeCommand before
  | .table => completeWord (tableCandidates k) before
  | .column => completeWord (columnCandidates k) before

end TableQuery.Shell
