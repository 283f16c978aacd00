/-
Why a text is no sequence of statements.
-/

namespace TableQuery.Sql

inductive SyntaxFault where
  | unclosedText
  | unclosedName
  | unclosedComment
  /-- Texts with escapes, `E'…'`, are not part of the language. -/
  | escapedText
  | unexpected
  | tooDeep
  deriving DecidableEq, Repr

def SyntaxFault.message : SyntaxFault → String
  | unclosedText => "unterminated string literal"
  | unclosedName => "unterminated quoted identifier"
  | unclosedComment => "unterminated comment"
  | escapedText => "escape strings are not supported"
  | unexpected => "unexpected token"
  | tooDeep => "recursion limit exceeded"

end TableQuery.Sql
