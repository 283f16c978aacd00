/-
The program: reads its arguments, files and lines of input, and prints what a run says.
-/
import TableQuery.Shell.Completeness
import TableQuery.Shell.Files
import TableQuery.Shell.Prompt
import TableQuery.Shell.Run

namespace TableQuery.Shell

def accessFault : IO.Error → AccessFault
  | .noFileOrDirectory .. => .notFound
  | .permissionDenied .. => .other "Permission denied (os error 13)"
  | .inappropriateType .. => .isDirectory
  | e => .other (toString e)

def readFile (path : String) : IO (Except AccessFault (List UInt8)) := do
  try return .ok (← IO.FS.readBinFile path).toList
  catch e => return .error (accessFault e)

def readFiles (paths : List String) : IO (List (String × Except AccessFault (List UInt8))) :=
  paths.mapM fun path => do return (path, ← readFile path)

/-- Seconds with three places. -/
def secondsText (ms : Nat) : String :=
  let r := toString (ms % 1000)
  toString (ms / 1000) ++ "." ++ Grid.repeated '0' (3 - r.length) ++ r

def report (start : Nat) : Event → IO Unit
  | .out s => do
    (← IO.getStdout).putStr s
    (← IO.getStdout).flush
  | .err s => do (← IO.getStderr).putStr s
  | .elapsed => do
    let now ← IO.monoMsNow
    (← IO.getStderr).putStr (elapsedText (secondsText (now - start)))

/-- Reads lines until they are complete; `none` at the end of the input. -/
partial def readStatement (before : String) : IO (Option String) := do
  let stdout ← IO.getStdout
  stdout.putStr (if before.isEmpty then Prompt.left ++ Prompt.indicator .emacs else Prompt.continuation)
  stdout.flush
  let line ← (← IO.getStdin).getLine
  if line.isEmpty then return none
  let text := before ++ line
  if isComplete text then return some text else readStatement text

/-- The lines of the shell one after the other. -/
partial def shellLoop (s : State) : IO Unit := do
  match ← readStatement "" with
  | none => return ()
  | some line =>
    let start ← IO.monoMsNow
    let files ← readFiles (s.db.catalog.pathsOfText line)
    let (events, next) := s.enter (ReadFile.ofList files) line
    events.forM (report start)
    match next with
    | some s => shellLoop s
    | none => return ()

def runOptions (o : Options) : IO UInt32 := do
  let start ← IO.monoMsNow
  let scripts ← readFiles (o.init.toList ++ o.file.toList)
  let catalog : Catalog := { baseDir := o.data }
  let read := ReadFile.ofList scripts
  let texts := scripts.filterMap (fun f => (read.text f.1).toOption) ++ o.input.toList ++
    o.input.toList.map loadStatement
  let files ← readFiles (texts.flatMap catalog.pathsOfText)
  let r := run o (ReadFile.ofList (scripts ++ files))
  r.events.forM (report start)
  if let some db := r.shell then
    if ← (← IO.getStdin).isTty then shellLoop { db := db }
    else (← IO.getStderr).putStr noTerminal
  return UInt32.ofNat r.code

end TableQuery.Shell

def main (args : List String) : IO UInt32 := do
  match TableQuery.Shell.Options.ofArguments args with
  | .ok o => TableQuery.Shell.runOptions o
  | .error f =>
    (← IO.getStderr).putStr (TableQuery.Shell.usageError f)
    return 2
