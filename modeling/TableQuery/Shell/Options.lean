/-
The options of the command line.
-/

namespace TableQuery.Shell

structure Options where
  /-- A statement, or the path of a file to load. -/
  input : Option String := none
  file : Option String := none
  init : Option String := none
  timer : Bool := false
  data : Option String := none
  deriving DecidableEq, Inhabited

/-- Why arguments are no options. -/
inductive OptionFault where
  | unexpected (argument : String)
  | missingValue (option : String)
  | unexpectedValue (value option : String)
  | repeated (option : String)
  deriving DecidableEq

def OptionFault.message : OptionFault → String
  | unexpected a => s!"unexpected argument '{a}' found"
  | missingValue o => s!"a value is required for '{o}' but none was supplied"
  | unexpectedValue v o => s!"unexpected value '{v}' for '{o}' found; no more were expected"
  | repeated o => s!"the argument '{o}' cannot be used multiple times"

/-- What is printed in place of a run. -/
def usageError (f : OptionFault) : String :=
  s!"error: {f.message}\n\nUsage: recruit-query [OPTIONS] [INPUT]\n\nFor more information, try '--help'.\n"

namespace Options

/-- The options that take a value. -/
inductive Key where
  | file | init | data
  deriving DecidableEq, Repr

def Key.display : Key → String
  | file => "--file <FILE>"
  | init => "--init <INIT>"
  | data => "--data <DIR>"

def longKey? : String → Option Key
  | "file" => some .file
  | "init" => some .init
  | "data" => some .data
  | _ => none

def shortKey? : Char → Option Key
  | 'f' => some .file
  | 'i' => some .init
  | 'd' => some .data
  | _ => none

def get (o : Options) : Key → Option String
  | .file => o.file
  | .init => o.init
  | .data => o.data

/-- No option can be given twice. -/
def set (o : Options) (k : Key) (v : String) : Except OptionFault Options :=
  if (o.get k).isSome then .error (.repeated k.display)
  else
    match k with
    | .file => .ok { o with file := some v }
    | .init => .ok { o with init := some v }
    | .data => .ok { o with data := some v }

def setTimer (o : Options) : Except OptionFault Options :=
  if o.timer then .error (.repeated "--timer") else .ok { o with timer := true }

def setInput (o : Options) (v : String) : Except OptionFault Options :=
  if o.input.isSome then .error (.unexpected v) else .ok { o with input := some v }

/-- Whether an argument is the name of an option rather than a value. -/
def isOption (a : String) : Bool :=
  match a.toList with
  | '-' :: _ :: _ => true
  | _ => false

/-- Reads the letters behind one hyphen: switches, then possibly an option with its value, which
is the rest of the argument or else the next argument. -/
def readShort (o : Options) (next : List String) : List Char → Except OptionFault (Options × List String)
  | [] => .ok (o, next)
  | c :: r =>
    if c = 't' then do readShort (← o.setTimer) next r
    else
      match shortKey? c with
      | none => .error (.unexpected (String.ofList ['-', c]))
      | some k =>
        match r, next with
        | '=' :: v, _ => do return (← o.set k (String.ofList v), next)
        | _ :: _, _ => do return (← o.set k (String.ofList r), next)
        | [], v :: rest =>
          if isOption v then .error (.missingValue k.display) else do return (← o.set k v, rest)
        | [], [] => .error (.missingValue k.display)

/-- Reads what stands behind two hyphens: a name, and a value behind an equals sign or else in the
next argument. -/
def readLong (o : Options) (next : List String) (body : List Char) :
    Except OptionFault (Options × List String) :=
  let name := String.ofList (body.takeWhile (· != '='))
  let value := (body.dropWhile (· != '=')).drop 1
  let given := body.contains '='
  if name = "timer" then
    if given then .error (.unexpectedValue (String.ofList value) "--timer")
    else do return (← o.setTimer, next)
  else
    match longKey? name with
    | none => .error (.unexpected ("--" ++ name))
    | some k =>
      if given then do return (← o.set k (String.ofList value), next)
      else
        match next with
        | v :: rest =>
          if isOption v then .error (.missingValue k.display) else do return (← o.set k v, rest)
        | [] => .error (.missingValue k.display)

/-- Two hyphens alone end the options; a single one is a value. -/
def readUpTo (o : Options) : Nat → List String → Except OptionFault Options
  | _, [] | 0, _ => .ok o
  | n + 1, a :: next => do
    match a.toList with
    | ['-', '-'] => next.foldlM setInput o
    | '-' :: '-' :: body =>
      let (o, rest) ← o.readLong next body
      readUpTo o n rest
    | '-' :: c :: body =>
      let (o, rest) ← o.readShort next (c :: body)
      readUpTo o n rest
    | _ => readUpTo (← o.setInput a) n next

def ofArguments (args : List String) : Except OptionFault Options := readUpTo {} args.length args

end Options

end TableQuery.Shell
