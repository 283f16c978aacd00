/-
A whole run of the program: what it prints for its options and the files it can read, and whether
it goes on to read statements from a terminal.
-/
import TableQuery.Shell.Banner
import TableQuery.Shell.Command
import TableQuery.Shell.Completion
import TableQuery.Shell.Options

namespace TableQuery.Shell

/-- What is printed, and where. -/
inductive Event where
  | out (s : String)
  | err (s : String)
  /-- The time since the last statement was started. -/
  | elapsed
  deriving DecidableEq

structure Run where
  events : List Event := []
  code : Nat := 0
  /-- The database with which statements are read from a terminal. -/
  shell : Option Database := none

/-! ## Results of statements -/

def errorLine (s : String) : Event := .err (painted Style.error s)

def outcomeText (mode : OutputMode) : Outcome → String
  | .table t => t.print mode
  | .notices ns => painted Style.success (Notice.lines ns)

/-- What a statement prints; the time only if it succeeds. -/
def resultEvents (s : Settings) : Except Sql.Error Outcome → List Event
  | .ok out => .out (outcomeText s.mode out) :: (if s.timer then [.elapsed] else [])
  | .error e => [errorLine ("Error: " ++ e.message)]

def elapsedText (seconds : String) : String := painted Style.timer ("Run Time: " ++ seconds ++ "s")

/-! ## Kinds of runs -/

/-- A statement from the command line. -/
def runStatement (db : Database) (read : ReadFile) (timer : Bool) (text : String) : Run :=
  let (result, _) := db.execute read text
  { events := resultEvents { timer := timer } result
    code := match result with
      | .ok _ => 0
      | .error _ => 1 }

/-- Each statement is written out and run on its own; errors do not end the run. -/
def scriptEvents (read : ReadFile) (s : Settings) : Database → List Sql.Statement → List Event
  | _, [] => []
  | db, statement :: r =>
    let (result, db) := db.execute read statement.spelling
    resultEvents s result ++ scriptEvents read s db r

/-- The statements of a file. -/
def runFile (db : Database) (read : ReadFile) (timer : Bool) (path : String) : Run :=
  match read.text path with
  | .error fault => { events := [.err s!"Error reading {path}: {fault.message}\n"], code := 1 }
  | .ok text =>
    match Sql.Statement.ofString text with
    | .error fault => { events := [errorLine s!"Error parsing {path}: {fault.message}"], code := 1 }
    | .ok statements => { events := scriptEvents read { timer := timer } db statements }

/-- The database after a script that is run first, if there is one. -/
def runInit (db : Database) (read : ReadFile) : Option String → Except String Database
  | none => .ok db
  | some path =>
    match db.executeFile read path with
    | (.ok _, db) => .ok db
    | (.error e, _) => .error s!"Error in init script {path}: {e.message}"

/-- The statement that loads a file as the table `t`. -/
def loadStatement (path : String) : String :=
  "CREATE TABLE t AS SELECT * FROM read_csv('" ++
    String.ofList (path.toList.flatMap fun c => if c = '\'' then ['\'', '\''] else [c]) ++ "')"

/-- The start of the shell: banner, script, file to load. An error ends it. -/
def startShell (db : Database) (read : ReadFile) (o : Options) : Run :=
  let start : List Event := [.out (banner {})]
  match runInit db read o.init with
  | .error message => { events := start ++ [errorLine message] }
  | .ok db =>
    match o.input with
    | none => { events := start, shell := some db }
    | some path =>
      match db.execute read (loadStatement path) with
      | (.error e, _) => { events := start ++ [errorLine s!"Error loading {path}: {e.message}"] }
      | (.ok (.notices ns), db) =>
        { events := start ++ [.out (painted Style.success (Notice.lines ns))], shell := some db }
      | (.ok _, db) => { events := start, shell := some db }

/-- An input that names a file of values is loaded, any other is a statement. -/
def isLoaded (input : String) : Bool := ".csv".toList.isSuffixOf input.toList

/-- A run ends at the first of these that the options ask for: a statement, a file of statements,
the shell. -/
def run (o : Options) (read : ReadFile) : Run :=
  let db : Database := ⟨{ baseDir := o.data }⟩
  let afterInit (f : Database → Run) : Run :=
    match runInit db read o.init with
    | .error message => { events := [errorLine message], code := 1 }
    | .ok db => f db
  match o.input.filter (!isLoaded ·), o.file with
  | some statement, _ => afterInit (runStatement · read o.timer statement)
  | none, some path => afterInit (runFile · read o.timer path)
  | none, none => startShell db read o

/-- Without a terminal the shell ends at its first prompt. -/
def noTerminal : String := "Error: No such device or address (os error 6)\n"

/-! ## Lines typed into the shell -/

/-- The state of the shell between two lines. -/
structure State where
  db : Database
  settings : Settings := {}
  known : Known := {}

def tableSizes (db : Database) : List TableSize :=
  db.catalog.names.filterMap fun name =>
    (db.catalog.info? name).map fun (rows, cols) => ⟨name, rows, cols⟩

/-- A complete line is a command or a statement. The result of a query gives the columns that are
suggested next; `none` ends the shell. -/
def State.enter (s : State) (read : ReadFile) (line : String) : List Event × Option State :=
  let trimmed := Text.trimChars line.toList
  match trimmed with
  | [] => ([], some s)
  | '.' :: _ =>
    let reply := runCommand s.db s.settings (String.ofList trimmed)
    ([.out reply.out], if reply.goesOn then some { s with settings := reply.settings } else none)
  | _ =>
    let statement := Text.trimChars (trimmed.reverse.dropWhile (· == ';')).reverse
    if statement.isEmpty then ([], some s)
    else
      let (result, db) := s.db.execute read (String.ofList statement)
      let s := { s with db := db }
      (resultEvents s.settings result,
        some <| match result with
          | .ok (.table t) => { s with known := { s.known with columns := t.fields } }
          | .ok (.notices _) => { s with known := { s.known with tables := tableSizes db } }
          | .error _ => s)

end TableQuery.Shell
