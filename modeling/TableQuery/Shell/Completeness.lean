/-
When a line of input is complete: quotes and parentheses are closed and a semicolon stands last.
-/
import TableQuery.Text.Blank

namespace TableQuery.Shell

inductive ScanMode where
  | code
  | quoted (q : Char)
  /-- A comment ends with its line. -/
  | comment
  deriving DecidableEq

structure Scan where
  mode : ScanMode := .code
  /-- Opening parentheses less closing ones: a number of 32 bits, on lines of less than `2147483648` characters
  (`Scan.depth_all_range`). -/
  depth : Int := 0
  /-- The last character outside of texts and comments, quotes included. -/
  last : Option Char := none

/-- Reads one character; the one behind it decides whether a comment starts. -/
def Scan.next (s : Scan) (c : Char) (following : Option Char) : Scan :=
  match s.mode with
  | .quoted q => if c = q then { s with mode := .code, last := some c } else s
  | .comment => if c = '\n' then { s with mode := .code } else s
  | .code =>
    if c = '\'' || c = '"' then { s with mode := .quoted c, last := some c }
    else if c = '-' && following = some '-' then { s with mode := .comment }
    else if c = '(' then { s with depth := s.depth + 1, last := some c }
    else if c = ')' then { s with depth := s.depth - 1, last := some c }
    else if Text.isBlank c then s
    else { s with last := some c }

def Scan.all (s : Scan) : List Char → Scan
  | [] => s
  | c :: r => (s.next c r.head?).all r

def Scan.isClosed (s : Scan) : Bool :=
  s.depth ≤ 0 && (match s.mode with
    | .quoted _ => false
    | _ => true)

/-- Empty lines and commands are always complete. -/
def isComplete (line : String) : Bool :=
  match Text.trimChars line.toList with
  | [] => true
  | '.' :: _ => true
  | cs =>
    let s := Scan.all {} cs
    s.isClosed && s.last == some ';'

end TableQuery.Shell
