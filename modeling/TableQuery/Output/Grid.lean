/-
Tables as grids: a frame of lines, names and kinds above the rows, a count of rows and columns
below them. Of a long table only the first and the last rows are shown.
-/
import TableQuery.Output.Style
import TableQuery.Table

namespace TableQuery.Grid

/-! ## Text in a given width -/

inductive Align where
  | left | right | center
  deriving DecidableEq, Repr

def repeated (c : Char) (n : Nat) : String := String.ofList (List.replicate n c)

/-- Of the spaces around a text in the middle, the odd one is on the right. The width has no bound here: a
formatter that takes widths up to `65535` only would not print wider columns. -/
def pad (a : Align) (width : Nat) (s : String) : String :=
  let n := width - s.length
  match a with
  | .left => s ++ repeated ' ' n
  | .right => repeated ' ' n ++ s
  | .center => repeated ' ' (n / 2) ++ s ++ repeated ' ' (n - n / 2)

/-! ## Rows -/

/-- The difference of two numbers, unless it is negative. -/
def difference? (a b : Nat) : Option Nat := if b ≤ a then some (a - b) else none

/-- The numbers of first and of last rows of a long table that are shown. -/
def headRows : Nat := 20
def tailRows : Nat := 20

inductive Line where
  | row (values : Row)
  /-- Stands for the rows that are left out. -/
  | dots
  deriving DecidableEq

/-- Whether rows are left out. -/
def isLong (t : Table) : Bool := headRows + tailRows < t.size

/-- The rows from one number up to another one, unless the table ends before. -/
def rowsBetween? (t : Table) (first last : Nat) : Option (List Row) :=
  if first ≤ last ∧ last ≤ t.size then some ((t.rows.take last).drop first) else none

def lines? (t : Table) : Option (List Line) := do
  let head ← rowsBetween? t 0 (if isLong t then headRows else t.size)
  if isLong t then
    let tail ← rowsBetween? t (← difference? t.size tailRows) t.size
    return head.map .row ++ .dots :: tail.map .row
  else return head.map .row

def dotsText : String := "···"

/-- The text of a line in one column. -/
def Line.cell? (col : Nat) : Line → Option String
  | row values => values[col]?.map Value.toText
  | dots => some dotsText

/-! ## Columns -/

/-- The kind of the first value of a column that is not null. -/
def columnKind? (col : Nat) : List Row → Option Kind
  | [] => some .null
  | row :: rows => do
    let v ← row[col]?
    if v.isNull then columnKind? col rows else return v.kind

structure Column where
  name : String
  kind : Kind
  width : Nat

def isNumeric : Kind → Bool
  | .int | .float => true
  | _ => false

/-- Wide enough for the name, the kind and every cell. -/
def column? (t : Table) (ls : List Line) (name : String) (col : Nat) : Option Column := do
  let kind ← columnKind? col t.rows
  let cells ← ls.mapM (Line.cell? col)
  return ⟨name, kind, (cells.map String.length).foldl max (max name.length kind.name.length)⟩

/-- The width between the outer lines: one line less than columns, and each column between two spaces. -/
def innerWidth? (cs : List Column) : Option Nat := difference? (cs.foldr (fun c n => c.width + 2 + n) cs.length) 1

/-- Makes the last column wider. -/
def widenLast? (extra : Nat) : List Column → Option (List Column)
  | [] => none
  | [c] => some [{ c with width := c.width + extra }]
  | c :: r => (widenLast? extra r).map (c :: ·)

/-! ## The footer -/

def shownRows : Nat := headRows + tailRows

def footerLeft (t : Table) : String :=
  if isLong t then s!"{t.size} rows ({shownRows} shown)" else s!"{t.size} rows"

def footerRight (t : Table) : String := s!"{t.width} columns"

/-- The footer fits with a space at both ends and one in the middle. -/
def footerWidth (t : Table) : Nat := (footerLeft t).length + (footerRight t).length + 3

/-- The columns, wide enough also for the footer, and the width between the outer lines. -/
def columns? (t : Table) (ls : List Line) : Option (List Column × Nat) := do
  let cs ← t.fields.zipIdx.mapM fun (name, col) => column? t ls name col
  let inner ← innerWidth? cs
  if inner < footerWidth t then
    let extra ← difference? (footerWidth t) inner
    return (← widenLast? extra cs, inner + extra)
  else return (cs, inner)

/-! ## Lines of the grid -/

/-- A horizontal line with its left end, its crossings and its right end. -/
def rule (left cross right : String) (cs : List Column) : String :=
  Style.paint Style.border
    (left ++ cross.intercalate (cs.map fun c => repeated '─' (c.width + 2)) ++ right)

def bar : String := Style.paint Style.border "│"

/-- Cells between vertical lines. -/
def boxed (cells : List String) : String :=
  String.join (cells.map fun s => bar ++ " " ++ s ++ " ") ++ bar

def nameCell (c : Column) : String :=
  Style.paint (Style.bold ++ Style.header) (pad .center c.width c.name)

def kindCell (c : Column) : String := Style.paint Style.kind (pad .center c.width c.kind.name)

def valueCell (c : Column) (v : Value) : String :=
  if v.isNull then Style.paint (Style.italic ++ Style.null) (pad .right c.width v.toText)
  else Style.paint Style.text (pad (if isNumeric c.kind then .right else .left) c.width v.toText)

def dotsCell (c : Column) : String := Style.paint Style.footer (pad .center c.width dotsText)

def Line.cells? (cs : List Column) : Line → Option (List String)
  | row values => cs.zipIdx.mapM fun (c, col) => values[col]?.map (valueCell c)
  | dots => some (cs.map dotsCell)

def footerLine? (t : Table) (inner : Nat) : Option String := do
  let gap ← difference? inner ((footerLeft t).length + (footerRight t).length + 2)
  return bar ++ " " ++ Style.paint Style.footer (footerLeft t ++ repeated ' ' gap ++ footerRight t) ++ " " ++ bar

/-- All lines of the grid from top to bottom. -/
def gridLines? (t : Table) : Option (List String) := do
  let ls ← lines? t
  let (cs, inner) ← columns? t ls
  let body ← ls.mapM fun l => (l.cells? cs).map boxed
  let footer ← footerLine? t inner
  return rule "┌" "┬" "┐" cs :: boxed (cs.map nameCell) :: boxed (cs.map kindCell) :: rule "├" "┼" "┤" cs ::
    body ++
    [rule "├" "┴" "┤" cs, footer, Style.paint Style.border ("└" ++ repeated '─' inner ++ "┘")]

/-- A table without columns has no grid. Of any other table there is one if every row has a value for each
column. -/
def print? (t : Table) : Option String := do
  let ls ← if t.width = 0 then some [Style.paint Style.footer "(empty result)"] else gridLines? t
  return String.join (ls.map (· ++ "\n"))

end TableQuery.Grid
