/-
The banner that is shown when the shell starts.
-/
import TableQuery.Output.Grid

namespace TableQuery.Shell

/-- What the banner tells about the program. -/
structure Build where
  name : String := "recruit-query"
  version : String := "0.1.0"
  revision : String := "unknown"
  machine : String := "x86_64"

def Build.tag (b : Build) : String := s!"v{b.version}  ·  {b.revision}  ·  {b.machine}"

def bannerHint : String := "type .help for commands"

/-- A line of the banner between its sides. -/
def bannerLine (width : Nat) (style s : String) : String :=
  let side := Style.paint Style.frame "│"
  side ++ " " ++ Style.paint style (Grid.pad .left width s) ++ " " ++ side ++ "\n"

/-- A frame as wide as its widest line, with the name in the upper side. -/
def banner (b : Build) : String :=
  let width := max (max b.tag.length bannerHint.length) (b.name.length + 2)
  Style.frame ++ "╭─ " ++ Style.paint (Style.bold ++ Style.title) b.name ++
    Style.paint Style.frame (" ─" ++ Grid.repeated '─' (width - b.name.length - 2) ++ "╮") ++ "\n" ++
    bannerLine width Style.info b.tag ++ bannerLine width Style.hint bannerHint ++
    Style.paint Style.frame ("╰" ++ Grid.repeated '─' (width + 2) ++ "╯") ++ "\n\n"

end TableQuery.Shell
