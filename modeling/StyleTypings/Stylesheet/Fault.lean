import StyleTypings.Text.Span

/-!
# Faults in a style sheet
-/

namespace StyleTypings

/-- What is wrong at a place of a style sheet. -/
inductive FaultKind
  /-- An open brace without a closing one. -/
  | unclosedBlock
  | unclosedComment
  /-- A string that reaches a line break or the end. -/
  | unclosedString
  /-- A closing brace outside every block. -/
  | unexpectedCloseBrace
  /-- Text that is neither a rule, an at-rule nor a declaration. -/
  | unknownWord (word : Text)
  deriving DecidableEq, Repr

/-- A fault and the bytes it concerns. -/
structure Fault where
  kind : FaultKind
  span : Span
  deriving DecidableEq, Repr

/-- The message shown to the user. -/
def FaultKind.message : FaultKind → Text
  | .unclosedBlock => "Unclosed block"
  | .unclosedComment => "Unclosed comment"
  | .unclosedString => "Unclosed string"
  | .unexpectedCloseBrace => "Unexpected \x7d"
  | .unknownWord word => "Unknown word " ++ word

end StyleTypings
