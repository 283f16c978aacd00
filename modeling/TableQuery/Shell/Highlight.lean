/-
The colours of a line of input: it is cut into segments, and each has a style. The line is read byte by byte;
the bytes of characters beyond ASCII are of no class, so that they stay together.
-/
import TableQuery.Function
import TableQuery.Shell.Keyword
import TableQuery.Text.Slice
import TableQuery.Text.Utf8

namespace TableQuery.Shell

inductive SegmentKind where
  | plain | keyword | function | text | name | number | operator | comment | command
  deriving DecidableEq, Repr

/-- The escape code of a style; the plain one has none. -/
def SegmentKind.style : SegmentKind → String
  | plain => ""
  | keyword => "\x1b[1;34m"
  | function => "\x1b[1;36m"
  | text => "\x1b[33m"
  | name => "\x1b[32m"
  | number => "\x1b[35m"
  | operator => "\x1b[34m"
  | comment => "\x1b[3;90m"
  | command => "\x1b[36m"

structure Segment where
  kind : SegmentKind
  chars : List Char
  deriving DecidableEq

/-! ## Classes of characters -/

def isQuote (c : Char) : Bool := c = '\'' || c = '"'

def isNumberChar (c : Char) : Bool := c.isDigit || c = '.'

def isWordStart (c : Char) : Bool := c.isAlpha || c = '_'

def isWordChar (c : Char) : Bool := c.isAlphanum || c = '_'

def isOperatorStart (c : Char) : Bool := c = '=' || c = '<' || c = '>' || c = '!' || c = '|'

def isOperatorPart (c : Char) : Bool := c = '=' || c = '>' || c = '|'

/-- Characters that no segment before them runs over. -/
def startsSegment (c : Char) : Bool := isWordChar c || isOperatorStart c || isQuote c || c = '-'

/-- Whether a byte is a character of ASCII with a property. The bytes of longer characters are none. -/
def isByte (p : Char → Bool) (b : UInt8) : Bool := b < 0x80 && p (Char.ofNat b.toNat)

/-! ## Forms of segments -/

/-- What a segment is by its first two bytes. -/
inductive Form where
  | comment | quoted | number | word | operator | plain
  deriving DecidableEq, Repr

def Form.of (b : UInt8) (r : List UInt8) : Form :=
  if isByte (· = '-') b && r.head?.any (isByte (· = '-')) then .comment
  else if isByte isQuote b then .quoted
  else if isByte Char.isDigit b then .number
  else if isByte isWordStart b then .word
  else if isByte isOperatorStart b then .operator
  else .plain

/-- The number of bytes of a segment that starts with `b`. A quoted one ends behind its closing quote or, if
that is missing, with the line. -/
def Form.size (b : UInt8) (r : List UInt8) : Form → Nat
  | comment => ((b :: r).takeWhile fun d => !isByte (· = '\n') d).length
  | quoted => min ((r.takeWhile (· != b)).length + 2) (r.length + 1)
  | number => ((b :: r).takeWhile (isByte isNumberChar)).length
  | word => ((b :: r).takeWhile (isByte isWordChar)).length
  | operator => (r.takeWhile (isByte isOperatorPart)).length + 1
  | plain => (r.takeWhile fun d => !isByte startsSegment d).length + 1

theorem isByte_mono {p q : Char → Bool} (h : ∀ c, p c = true → q c = true) {b : UInt8} (hb : isByte p b = true) :
    isByte q b = true := by
  rw [isByte, Bool.and_eq_true] at hb ⊢
  exact ⟨hb.1, h _ hb.2⟩

/-- Every segment has a byte: the one it starts with is never a byte that it stops at. -/
theorem Form.size_of_pos (b : UInt8) (r : List UInt8) : 0 < (Form.of b r).size b r := by
  have hfirst {p : UInt8 → Bool} (h : p b = true) : 0 < ((b :: r).takeWhile p).length := by
    rw [List.takeWhile_cons_of_pos h]
    exact Nat.succ_pos _
  unfold Form.of
  split
  · rename_i h
    rw [Bool.and_eq_true] at h
    have hdash : isByte (!· = '\n') b = true := isByte_mono (fun c hc => by simp_all) h.1
    exact hfirst (by simp_all [isByte])
  split
  · exact Nat.lt_min.2 ⟨Nat.succ_pos _, Nat.succ_pos _⟩
  split
  · rename_i h
    exact hfirst (isByte_mono (fun c hc => by simp [isNumberChar, hc]) h)
  split
  · rename_i h
    refine hfirst (isByte_mono (fun c hc => ?_) h)
    simp only [isWordStart, isWordChar, Char.isAlphanum, Bool.or_eq_true] at hc ⊢
    exact hc.imp_left .inl
  split
  · exact Nat.succ_pos _
  · exact Nat.succ_pos _

/-- Operators come before keywords; functions are called. -/
def wordKind (word : List Char) (following : Option UInt8) : SegmentKind :=
  let w := String.ofList word
  if operatorWords.any (Text.sameLetters w) then .operator
  else if keywords.any (Text.sameLetters w) then .keyword
  else if following.any (isByte (· = '(')) && Function.callableNames.any (Text.sameLetters w) then .function
  else .plain

/-- The kind of a segment by its form, its first byte, its characters and the byte behind it. -/
def Form.kind (b : UInt8) (chars : List Char) (following : Option UInt8) : Form → SegmentKind
  | comment => .comment
  | quoted => if isByte (· = '\'') b then .text else .name
  | number => .number
  | word => wordKind chars following
  | operator => .operator
  | plain => .plain

/-! ## Segments -/

/-- The segments from a position of the line on, from where it has the given bytes. There are none if one of
them would end inside a character. -/
def segmentsFrom (line : List Char) (start : Nat) : List UInt8 → Option (List Segment)
  | [] => some []
  | b :: r => do
    let form := Form.of b r
    let size := form.size b r
    let chars ← Text.slice? line start (start + size)
    let rest := (b :: r).drop size
    return ⟨form.kind b chars rest.head?, chars⟩ :: (← segmentsFrom line (start + size) rest)
termination_by bytes => bytes.length
decreasing_by
  have := Form.size_of_pos b r
  simp only [List.length_drop, List.length_cons]
  omega

/-- A command has one style. -/
def highlight (line : String) : Option (List Segment) :=
  match line.toList with
  | cs@('.' :: _) => some [⟨.command, cs⟩]
  | cs => segmentsFrom cs 0 (Text.encode line)

end TableQuery.Shell
