import StyleTypings.Text.Basic

/-!
# Names that cannot be exported

A named export declares a constant of a module, so reserved words are left out,
and so are names with a hyphen.
-/

namespace StyleTypings

/-- Keywords, literals and reserved words of ECMAScript 5, those of strict mode
included. -/
def es5ReservedWords : List Text :=
  [ "break", "case", "catch", "class", "const", "continue", "debugger",
    "default", "delete", "do", "else", "enum", "export", "extends", "false",
    "finally", "for", "function", "if", "import", "in", "instanceof", "new",
    "null", "return", "super", "switch", "this", "throw", "true", "try",
    "typeof", "var", "void", "while", "with", "implements", "interface", "let",
    "package", "private", "protected", "public", "static", "yield", "eval",
    "arguments" ].map String.toList

/-- Words that ECMAScript 2015 adds. -/
def es6ReservedWords : List Text :=
  ["await"].map String.toList

/-- Whether a name cannot be declared as a constant of a module. -/
def isReservedWord (name : Text) : Bool :=
  es5ReservedWords.contains name || es6ReservedWords.contains name

/-- Why a name is left out of a named export. -/
inductive RejectionReason
  | reservedKeyword
  | containsDashes
  deriving DecidableEq, Repr

/-- A name that is left out of a named export. -/
structure Rejection where
  name : Text
  reason : RejectionReason
  deriving DecidableEq, Repr

namespace Rejection

/-- The rejection of a name, if it is rejected; a reserved word is one whether
or not the name has a hyphen. -/
def ofName? (name : Text) : Option Rejection :=
  if isReservedWord name then
    some ⟨name, .reservedKeyword⟩
  else if name.contains '-' then
    some ⟨name, .containsDashes⟩
  else
    none

/-- The warning shown to the user. -/
def message (rejection : Rejection) : Text :=
  match rejection.reason with
  | .reservedKeyword =>
      "[SKIPPING] '" ++ rejection.name ++ "' is a reserved keyword" ++
        " (consider renaming or using --exportType default)."
  | .containsDashes =>
      "[SKIPPING] '" ++ rejection.name ++ "' contains dashes (consider using " ++
        "'camelCase' or 'dashes' for --nameFormat or using --exportType default)."

end Rejection
end StyleTypings
