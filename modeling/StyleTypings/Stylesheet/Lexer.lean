import StyleTypings.Stylesheet.Token

/-!
# Lexing

`classify` looks at the characters from a place on and answers with the kind of
the lexeme there and with the number of characters that belong to it besides the
first. `lexemes` cuts a text into lexemes by it, so their texts always put
together the whole text again.

In the LESS dialect two slashes outside parentheses begin a comment; inside
parentheses they belong to a value such as a web address.
-/

namespace StyleTypings
namespace Lexer

/-- A space, tab, carriage return, line feed or form feed. -/
def isSpace (c : Char) : Bool :=
  c == ' ' || c == '\t' || c == '\r' || c == '\n' || c == '\x0c'

/-- A character that is not part of plain text. -/
def isSpecial (c : Char) : Bool :=
  isSpace c || c == '{' || c == '}' || c == ';' || c == ':' || c == '(' ||
    c == ')' || c == '"' || c == '\'' || c == '@' || c == '/'

/-- A character that may begin the word of an at-keyword. -/
def startsKeyword (c : Char) : Bool :=
  c.isAlpha || c == '_' || c == '-'

/-- A character that may continue the word of an at-keyword. -/
def continuesKeyword (c : Char) : Bool :=
  startsKeyword c || c.isDigit

/-- Number of characters up to the end of the first `*/`. -/
def commentEnd? : Text → Option Nat
  | [] => none
  | '*' :: '/' :: _ => some 2
  | _ :: rest => (commentEnd? rest).map (· + 1)

/-- How far a string reaches, and whether it is closed. A backslash hides the
character after it; a line feed that is not hidden ends the string before it. -/
def stringEnd (quote : Char) : Text → Nat × Bool
  | [] => (0, false)
  | ['\\'] => (1, false)
  | '\\' :: _ :: rest =>
      let reached := stringEnd quote rest
      (reached.1 + 2, reached.2)
  | c :: rest =>
      if c = '\n' then
        (0, false)
      else if c = quote then
        (1, true)
      else
        let reached := stringEnd quote rest
        (reached.1 + 1, reached.2)

/-- Number of characters at the front that satisfy a test. -/
def countWhile (test : Char → Bool) (text : Text) : Nat :=
  (text.takeWhile test).length

/-- The kind of the lexeme that begins with a slash, and how many characters
after the slash belong to it. -/
def classifySlash
    (dialect : Dialect)
    (depth : Nat)
    (rest : Text) : TokenKind × Nat :=
  match rest with
  | '*' :: body =>
      match commentEnd? body with
      | some count => (.comment, count + 1)
      | none => (.invalid, rest.length)
  | '/' :: _ =>
      if dialect = .less ∧ depth = 0 then
        (.lineComment, countWhile (· != '\n') rest)
      else
        (.slash, 0)
  | _ => (.slash, 0)

/-- The kind of the lexeme at the front of a text, and how many characters
belong to it besides the first. -/
def classify
    (dialect : Dialect)
    (depth : Nat)
    (first : Char)
    (rest : Text) : TokenKind × Nat :=
  match first with
  | '{' => (.openBrace, 0)
  | '}' => (.closeBrace, 0)
  | ';' => (.semicolon, 0)
  | ':' => (.colon, 0)
  | '(' => (.openParen, 0)
  | ')' => (.closeParen, 0)
  | '/' => classifySlash dialect depth rest
  | '@' =>
      if rest.head?.any startsKeyword then
        (.atKeyword, countWhile continuesKeyword rest)
      else
        (.atSign, 0)
  | _ =>
      if first = '"' ∨ first = '\'' then
        let reached := stringEnd first rest
        (if reached.2 then .string else .invalid, reached.1)
      else if isSpace first then
        (.whitespace, countWhile isSpace rest)
      else
        (.text, countWhile (fun c => !isSpecial c) rest)

/-- The lexemes of a text, given the nesting of parentheses before it. -/
def lexemes
    (dialect : Dialect)
    (depth : Nat) : Text → List Lexeme
  | [] => []
  | first :: rest =>
      let lexed := classify dialect depth first rest
      ⟨lexed.1, first :: rest.take lexed.2⟩ ::
        lexemes dialect (lexed.1.depthAfter depth) (rest.drop lexed.2)
  termination_by text => text.length
  decreasing_by
    simp only [List.length_cons, List.length_drop]
    omega

/-- The tokens of a text without the one at its end. -/
def tokens (dialect : Dialect) (source : Text) : List Token :=
  Lexeme.place 0 (lexemes dialect 0 source)

/-- The token at the end of a text. -/
def endToken (source : Text) : Token :=
  ⟨.endOfFile, [], source.byteSize⟩

/-- All tokens of a text, the one at its end included. -/
def allTokens (dialect : Dialect) (source : Text) : List Token :=
  tokens dialect source ++ [endToken source]

end Lexer
end StyleTypings
