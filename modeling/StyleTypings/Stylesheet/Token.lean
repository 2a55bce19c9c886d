import StyleTypings.Text.Span

/-!
# Tokens of a style sheet

Only the characters that shape the rule tree have kinds of their own; all other
characters form runs of plain text. A lexeme is a kind with the characters it
covers, and a token is a lexeme at its place in the source.

Places are counted without bound. They stand for offsets that are words of 32 bits, so
sources from 2 ^ 32 bytes on are left out.
-/

namespace StyleTypings

/-- The dialect of a style sheet. -/
inductive Dialect
  | css
  /-- CSS with comments from two slashes to the end of the line. -/
  | less
  deriving DecidableEq, Repr

/-- The dialect that a file extension stands for. -/
def Dialect.ofExtension (extension : Option Text) : Dialect :=
  if extension.any (Text.equalsIgnoringCase "less") then .less else .css

/-- The kinds of token. -/
inductive TokenKind
  | whitespace
  | comment
  /-- A comment from two slashes to the end of the line. -/
  | lineComment
  | string
  | openBrace
  | closeBrace
  | semicolon
  | colon
  | openParen
  | closeParen
  /-- An at sign with the word after it. -/
  | atKeyword
  /-- An at sign by itself. -/
  | atSign
  | slash
  | text
  | endOfFile
  /-- A comment or string that does not end. -/
  | invalid
  deriving DecidableEq, Repr

namespace TokenKind

/-- Whether tokens of a kind only separate others. -/
def isTrivia : TokenKind → Bool
  | .whitespace | .comment | .lineComment => true
  | _ => false

/-- The name of a kind. -/
def name : TokenKind → Text
  | .whitespace => "whitespace"
  | .comment => "comment"
  | .lineComment => "line comment"
  | .string => "string"
  | .openBrace => "'\x7b'"
  | .closeBrace => "'\x7d'"
  | .semicolon => "';'"
  | .colon => "':'"
  | .openParen => "'('"
  | .closeParen => "')'"
  | .atKeyword => "at-keyword"
  | .atSign => "'@'"
  | .slash => "'/'"
  | .text => "text"
  | .endOfFile => "end of file"
  | .invalid => "invalid token"

/-- The nesting of parentheses after a token, never below zero. -/
def depthAfter (kind : TokenKind) (depth : Nat) : Nat :=
  match kind with
  | .openParen => depth + 1
  | .closeParen => depth - 1
  | _ => depth

end TokenKind

/-- A kind with the characters it covers. -/
structure Lexeme where
  kind : TokenKind
  text : Text
  deriving DecidableEq, Repr

/-- A lexeme at its place in the source. -/
structure Token where
  kind : TokenKind
  text : Text
  /-- Byte offset of the first character. -/
  start : Nat
  deriving DecidableEq, Repr

namespace Token

/-- Byte offset just past the last character. -/
def stop (token : Token) : Nat :=
  token.start + token.text.byteSize

/-- The bytes that a token covers. -/
def span (token : Token) : Span :=
  ⟨token.start, token.stop⟩

/-- The text of some tokens one after the other. -/
def join (tokens : List Token) : Text :=
  tokens.flatMap Token.text

end Token

/-- Places lexemes one after the other from an offset on. -/
def Lexeme.place (offset : Nat) : List Lexeme → List Token
  | [] => []
  | lexeme :: rest =>
      ⟨lexeme.kind, lexeme.text, offset⟩ ::
        place (offset + lexeme.text.byteSize) rest

end StyleTypings
