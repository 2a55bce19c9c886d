import StyleTypings.Json.Fault

/-!
# Why a text is not a source map
-/

namespace StyleTypings

/-- Why a text is not a source map. -/
inductive SourceMapError
  /-- A segment ends inside a number. -/
  | vlqLeftover
  /-- A segment holds no number. -/
  | vlqNoValues
  /-- A number has too many digits. -/
  | vlqOverflow
  /-- A segment holds neither one, four nor five numbers. -/
  | badSegmentSize (count : Nat)
  /-- A segment refers past the list of sources. -/
  | badSourceReference (index : UInt32)
  /-- A segment refers past the list of names. -/
  | badNameReference (index : UInt32)
  /-- The map is made of sections or carries function maps. -/
  | incompatible
  /-- A range marker is not a base 64 digit. -/
  | invalidBase64 (char : Char)
  /-- A carriage return in the guard line has no line feed. -/
  | expectedNewline
  /-- The text is not JSON, or is JSON of another shape. -/
  | badJson (error : Option Json.SyntaxError)
  deriving DecidableEq, Repr

namespace SourceMapError

/-- What went wrong, in words. -/
def reason : SourceMapError → Text
  | .vlqLeftover => "leftover cur/shift in vlq decode"
  | .vlqNoValues => "vlq decode did not produce any values"
  | .vlqOverflow => "vlq decode caused an overflow"
  | .badSegmentSize count =>
      "got " ++ Text.ofNat count ++ " segments, expected 4 or 5"
  | .badSourceReference index =>
      "bad reference to source #" ++ Text.ofNat index.toNat
  | .badNameReference index =>
      "bad reference to name #" ++ Text.ofNat index.toNat
  | .incompatible => "encountered incompatible sourcemap format"
  | .invalidBase64 char => "invalid base64 character: " ++ [char]
  | .expectedNewline => "expected newline"
  | .badJson error => "bad json" ++ Json.SyntaxError.addendum error

/-- The message shown to the user. -/
def message (error : SourceMapError) : Text :=
  "invalid source map: " ++ error.reason

end SourceMapError
end StyleTypings
