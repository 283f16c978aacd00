/-
Commands of the shell, which start with a period: they choose how results are shown and tell what
is there.
-/
import TableQuery.Database
import TableQuery.Output.Mode

namespace TableQuery.Shell

/-- How results are shown. -/
structure Settings where
  mode : OutputMode := .grid
  timer : Bool := false
  deriving DecidableEq, Inhabited

/-- What a command leaves: whether the shell goes on, the settings, and what was printed. -/
structure Reply where
  goesOn : Bool := true
  settings : Settings
  out : String
  deriving DecidableEq

/-! ## Texts -/

/-- One line in a style. -/
def painted (style s : String) : String := Style.paint style s ++ "\n"

def heading (s : String) : String := painted (Style.bold ++ Style.header) s

def commandHelp (command description : String) : String :=
  "  " ++ Style.paint Style.command command ++ Grid.repeated ' ' (22 - command.length) ++
    painted Style.hint description

def sample (statement : String) : String := "  " ++ painted Style.text statement

def help : String := String.join
  [heading "Commands:",
    commandHelp ".mode table|csv|json" "Set output format",
    commandHelp ".tables" "List stored tables",
    commandHelp ".timer on|off" "Show query execution time",
    commandHelp ".help" "Show this help",
    commandHelp ".quit" "Exit",
    "\n",
    heading "SQL:",
    sample "SELECT dept, count(*) FROM read_csv('staff.csv') GROUP BY dept;",
    sample "CREATE TABLE t AS SELECT * FROM read_csv('staff.csv') WHERE age > 30;",
    sample "SELECT name, salary FROM t ORDER BY salary DESC LIMIT 5;",
    sample "DROP TABLE t;"]

/-- The stored tables with their sizes. -/
def tableList (db : Database) : String :=
  match db.catalog.names with
  | [] => painted Style.footer "No stored tables."
  | names => String.join <| names.filterMap fun name =>
      (db.catalog.info? name).map fun (rows, cols) =>
        "  " ++ Style.paint Style.header (Grid.pad .left 20 name) ++ " " ++
          painted Style.footer s!"{rows} rows, {cols} cols"

/-! ## Running a command -/

/-- The words of a line. -/
def splitWords (cs : List Char) : List (List Char) :=
  let (word, rest) := cs.foldr (fun c (acc : List Char × List (List Char)) =>
    if Text.isBlank c then ([], if acc.1.isEmpty then acc.2 else acc.1 :: acc.2)
    else (c :: acc.1, acc.2)) ([], [])
  if word.isEmpty then rest else word :: rest

def modeReply (s : Settings) : Option String → Reply
  | none => { settings := s, out := painted Style.footer "Usage: .mode table|csv|json" }
  | some word =>
    match [OutputMode.grid, .csv, .json].find? (·.name == word) with
    | some mode =>
      { settings := { s with mode := mode }
        out := painted Style.success ("Output mode: " ++ mode.name) }
    | none => { settings := s, out := painted Style.error "Unknown mode. Use: table, csv, json" }

def timerReply (s : Settings) : Option String → Reply
  | some "on" => { settings := { s with timer := true }, out := painted Style.success "Timer: on" }
  | some "off" => { settings := { s with timer := false }, out := painted Style.success "Timer: off" }
  | _ => { settings := s, out := painted Style.footer "Usage: .timer on|off" }

/-- Runs a command; an empty line does nothing. Words behind those that a command needs are not
looked at. -/
def runCommand (db : Database) (s : Settings) (line : String) : Reply :=
  match (splitWords line.toList).map String.ofList with
  | [] => { settings := s, out := "" }
  | name :: args =>
    match name with
    | ".mode" => modeReply s args.head?
    | ".timer" => timerReply s args.head?
    | ".tables" => { settings := s, out := tableList db }
    | ".help" => { settings := s, out := help }
    | ".quit" | ".exit" => { goesOn := false, settings := s, out := "" }
    | _ =>
      { settings := s
        out := painted Style.error s!"Unknown command: {name}. Type .help for commands." }

end TableQuery.Shell
