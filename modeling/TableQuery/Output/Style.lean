/-
Escape codes for the colours of a terminal.
-/

namespace TableQuery.Style

def bold : String := "\x1b[1m"
def italic : String := "\x1b[3m"
def reset : String := "\x1b[0m"

/-! ## Tables -/

def border : String := "\x1b[90m"
def header : String := "\x1b[1;36m"
def kind : String := "\x1b[90m"
def text : String := "\x1b[39m"
def null : String := "\x1b[90m"
def footer : String := "\x1b[90m"

/-! ## Messages -/

def error : String := "\x1b[1;31m"
def success : String := "\x1b[32m"
def timer : String := "\x1b[90m"

/-! ## Banner and help -/

def frame : String := "\x1b[34m"
def title : String := "\x1b[1;36m"
def info : String := "\x1b[39m"
def hint : String := "\x1b[90m"
def command : String := "\x1b[36m"

/-- A text in a style, and the plain style behind it. -/
def paint (style s : String) : String := style ++ s ++ reset

end TableQuery.Style
