import StyleTypings.Proofs.Classes.Escaping
import StyleTypings.Proofs.Classes.Gaps
import StyleTypings.Proofs.Stylesheet.Ready

/-!
# Which names survive

What follows a brace or a semicolon of a name is written without classes, so a rule
that is cut off there leaves nothing that could export the name. A name is therefore
exported without faults exactly if it has none of the characters that cut it off.
-/

namespace StyleTypings

open Lexer StyleTypings.Parser

namespace Selector

/-! ## Texts without classes -/

/-- A character behind a written name. -/
def IsRest (c : Char) : Prop :=
  c = ' ' ∨ c = '{' ∨ c = '}'

/-- A written name with spaces and braces behind it. -/
def Unclassed (text : Text) : Prop :=
  ∃ name front more, text = front ++ more ∧ Written name front ∧ ∀ c ∈ more, IsRest c

theorem identifier_of_isRest
    {text : Text}
    (rest : ∀ c ∈ text, IsRest c) :
    (identifier text).2 = text := by
  cases text with
  | nil => rw [identifier]
  | cons c others =>
      have isRest := rest c List.mem_cons_self
      rw [identifier]
      rcases isRest with rfl | rfl | rfl <;> rfl

theorem isInert_of_isRest {c : Char} (isRest : IsRest c) : IsInert c := by
  rcases isRest with rfl | rfl | rfl <;> decide

theorem classesFrom_of_isRest
    {text : Text}
    (rest : ∀ c ∈ text, IsRest c)
    (scopes : Scopes) :
    classesFrom scopes text = [] := by
  have passed := classesFrom_inert (fun c present => isInert_of_isRest (rest c present)) scopes []
  rw [List.append_nil] at passed
  rw [passed, classesFrom]

/-- The digits at the front of an escape are read to their end. -/
theorem identifier_digits
    {digits : Text}
    (hex : ∀ digit ∈ digits, isHexDigit digit = true)
    (length : digits.length ≤ 6) :
    (identifier ('\\' :: digits)).2 = [] := by
  have all : escapeDigits digits = digits := by
    unfold escapeDigits
    rw [List.take_of_length_le length, List.takeWhile_eq_self_iff.mpr hex]
  have nothing : (unescape digits).2 = [] := by
    unfold unescape
    simp only [all]
    split
    · next isEmpty => rw [List.isEmpty_iff.mp isEmpty, List.drop_nil]
    · rw [List.drop_length]
      rfl
  rw [identifier_backslash, nothing, identifier]

/-- A written character that is cut off is read to its end. -/
theorem Writes.identifier_of_prefix
    {c : Char}
    {unit text : Text}
    (writes : Writes c unit)
    (isFront : text <+: unit)
    (cut : text ≠ unit) :
    (identifier text).2 = [] := by
  cases text with
  | nil => rw [identifier]
  | cons first others =>
      cases writes with
      | plain =>
          obtain ⟨rfl, nothing⟩ := List.cons_prefix_cons.mp isFront
          exact absurd (by rw [List.prefix_nil.mp nothing]) cut
      | escape =>
          obtain ⟨rfl, inside⟩ := List.cons_prefix_cons.mp isFront
          have nothing : others = [] := by
            cases others with
            | nil => rfl
            | cons second more =>
                obtain ⟨rfl, nothing⟩ := List.cons_prefix_cons.mp inside
                exact absurd (by rw [List.prefix_nil.mp nothing]) cut
          rw [nothing]
          exact identifier_digits (List.forall_mem_nil _) (Nat.zero_le 6)
      | code isCoded =>
          obtain ⟨rfl, inside⟩ := List.cons_prefix_cons.mp isFront
          have isCode := isCode_toDigits (toNat_lt_of_isCoded isCoded)
          have digits : others <+: Nat.toDigits 16 c.toNat := by
            rcases List.prefix_concat_iff.mp inside with whole | within
            · exact absurd (by rw [whole]; rfl) cut
            · exact within
          exact identifier_digits (fun digit present => isCode.hex digit (digits.subset present))
            (Nat.le_trans digits.length_le isCode.length)

/-- Reading the front of a written name and what is behind it leaves only the latter. -/
theorem Written.isRest_of_identifier
    {name text more part : Text}
    (written : Written name text)
    (rest : ∀ c ∈ more, IsRest c)
    (isFront : part <+: text ++ more) :
    ∀ c ∈ (identifier part).2, IsRest c := by
  induction written generalizing part with
  | nil =>
      have within : ∀ c ∈ part, IsRest c := fun c present => rest c (isFront.subset present)
      rwa [identifier_of_isRest within]
  | @cons c name unit text writes _ inductionHypothesis =>
      obtain ⟨tail, whole⟩ := isFront
      rw [List.append_assoc] at whole
      rcases List.append_eq_append_iff.mp whole with ⟨between, isUnit, -⟩ | ⟨later, rfl, behind⟩
      · by_cases cut : part = unit
        · subst cut
          have whole := writes.identifier_append []
          rw [List.append_nil] at whole
          rw [whole]
          exact inductionHypothesis (List.nil_prefix)
        · rw [writes.identifier_of_prefix ⟨between, isUnit.symm⟩ cut]
          exact nofun
      · rw [writes.identifier_append]
        exact inductionHypothesis ⟨tail, behind.symm⟩

theorem classesFrom_of_isNameChar
    {c : Char}
    (isName : isNameChar c = true)
    (scopes : Scopes)
    (rest : Text) :
    classesFrom scopes (c :: rest) = classesFrom scopes rest := by
  have inert : IsInert c := by
    intro isSign
    have none : signs.any isNameChar = false := by decide
    exact List.any_eq_false.mp none c isSign isName
  exact @classesFrom_inert [c] (by simpa using inert) scopes rest

/-- The front of a written name has no classes, nor has what is behind it. -/
theorem Written.classesFrom_of_prefix
    {name text more part : Text}
    (written : Written name text)
    (rest : ∀ c ∈ more, IsRest c)
    (isFront : part <+: text ++ more)
    (scopes : Scopes) :
    classesFrom scopes part = [] := by
  induction written generalizing part with
  | nil => exact classesFrom_of_isRest (fun c present => rest c (isFront.subset present)) scopes
  | @cons c name unit text writes later inductionHypothesis =>
      cases part with
      | nil => rw [classesFrom]
      | cons first others =>
          by_cases isBackslash : first = '\\'
          · subst isBackslash
            rw [classesFrom]
            exact classesFrom_of_isRest
              ((Written.cons writes later).isRest_of_identifier rest isFront) scopes
          · cases writes with
            | plain isName =>
                obtain ⟨rfl, behind⟩ := List.cons_prefix_cons.mp isFront
                rw [classesFrom_of_isNameChar isName]
                exact inductionHypothesis behind
            | escape => exact absurd (List.cons_prefix_cons.mp isFront).1 isBackslash
            | code => exact absurd (List.cons_prefix_cons.mp isFront).1 isBackslash

theorem Unclassed.classes_of_prefix
    {text part : Text}
    (unclassed : Unclassed text)
    (isFront : part <+: text) :
    classes part = [] := by
  obtain ⟨name, front, more, rfl, written, rest⟩ := unclassed
  exact written.classesFrom_of_prefix rest isFront Scopes.start

/-- What is behind a brace or a semicolon of a text without classes has none either. -/
theorem Unclassed.behind_mark
    {text front back : Text}
    {mark : Char}
    (unclassed : Unclassed text)
    (isMark : IsMark mark)
    (split : text = front ++ mark :: back) :
    Unclassed back := by
  obtain ⟨name, written, more, rfl, writes, rest⟩ := unclassed
  rcases writes.cases_of_mark isMark split with
    ⟨before, after, beforeText, afterText, -, -, rfl, -, second⟩ | ⟨between, -, rfl⟩
  · exact ⟨after, afterText, more, rfl, second, rest⟩
  · exact ⟨[], [], back, rfl, .nil, fun c present =>
      rest c (List.mem_append_right _ (List.mem_cons_of_mem mark present))⟩

/-- Nor does what is behind something that no written name begins with. -/
theorem Unclassed.behind
    {front back : Text}
    {first : Char}
    (unclassed : Unclassed (first :: front ++ back))
    (noName : isNameChar first = false)
    (noBackslash : first ≠ '\\') :
    Unclassed back := by
  obtain ⟨name, written, more, split, writes, rest⟩ := unclassed
  cases writes with
  | nil =>
      rw [List.nil_append] at split
      refine ⟨[], [], back, rfl, .nil, fun c present => rest c ?_⟩
      rw [← split]
      exact List.mem_append_right _ present
  | @cons c name unit text writes _ =>
      cases writes with
      | plain isName =>
          rw [(List.cons.inj split).1] at noName
          exact absurd isName (Bool.eq_false_iff.mp noName)
      | escape => exact absurd (List.cons.inj split).1 noBackslash
      | code => exact absurd (List.cons.inj split).1 noBackslash

end Selector

namespace Parser

open Selector

/-! ## Tokens without classes -/

/-- How the first of some tokens was found. -/
theorem Lexed.exists_first
    {token : Token}
    {rest : List Token}
    (lexed : Lexed (token :: rest)) :
    ∃ first more, token.kind = (classify .css 0 first more).1 ∧
      token.text = first :: more.take (classify .css 0 first more).2 := by
  unfold Lexed at lexed
  cases text : Token.join (token :: rest) with
  | nil =>
      rw [text, lexemes] at lexed
      exact absurd lexed.symm (List.cons_ne_nil _ _)
  | cons first more =>
      rw [text, lexemes_cons] at lexed
      obtain ⟨same, -⟩ := List.cons.inj lexed
      exact ⟨first, more, (congrArg Lexeme.kind same).symm, (congrArg Lexeme.text same).symm⟩

/-- The character of a brace or a semicolon. -/
def markOf? : TokenKind → Option Char
  | .openBrace => some '{'
  | .closeBrace => some '}'
  | .semicolon => some ';'
  | _ => none

theorem isMark_of_markOf?
    {kind : TokenKind}
    {mark : Char}
    (found : markOf? kind = some mark) :
    IsMark mark := by
  cases kind with
  | openBrace | closeBrace | semicolon =>
      obtain rfl := Option.some.inj found
      exact ⟨rfl, by decide, by decide⟩
  | _ => exact absurd found nofun

/-- Braces and semicolons are tokens by themselves. -/
theorem classify_of_markOf?
    {first mark : Char}
    {rest : Text}
    (found : markOf? (classify .css 0 first rest).1 = some mark) :
    first = mark ∧ (classify .css 0 first rest).2 = 0 := by
  generalize classified : classify .css 0 first rest = lexed at found ⊢
  cases classifies_iff.mpr classified with
  | openBrace | closeBrace | semicolon => exact ⟨Option.some.inj found, rfl⟩
  | _ => exact absurd found nofun

theorem Lexed.text_of_markOf?
    {token : Token}
    {rest : List Token}
    {mark : Char}
    (lexed : Lexed (token :: rest))
    (found : markOf? token.kind = some mark) :
    token.text = [mark] := by
  obtain ⟨first, more, kind, text⟩ := lexed.exists_first
  rw [kind] at found
  obtain ⟨rfl, nothing⟩ := classify_of_markOf? found
  rw [text, nothing, List.take_zero]

/-- A text without classes is left behind a brace or a semicolon. -/
theorem Lexed.unclassed_behind_mark
    {front back : List Token}
    {token : Token}
    {mark : Char}
    (lexed : Lexed (front ++ token :: back))
    (unclassed : Unclassed (Token.join (front ++ token :: back)))
    (found : markOf? token.kind = some mark) :
    Unclassed (Token.join back) := by
  have text := lexed.parts.2.text_of_markOf? found
  have split : Token.join (front ++ token :: back) =
      Token.join front ++ mark :: Token.join back := by
    rw [Token.join_append]
    change _ ++ (token.text ++ Token.join back) = _
    rw [text]
    rfl
  exact unclassed.behind_mark (isMark_of_markOf? found) split

/-- What a name begins with begins plain text. -/
theorem classify_of_isNameChar
    {first : Char}
    (isName : isNameChar first = true ∨ first = '\\')
    (rest : Text) :
    (classify .css 0 first rest).1 = .text := by
  have plain : isSpecial first = false := by
    rcases isName with isName | rfl
    · have other {mark : Char} (noName : isNameChar mark = false) : first ≠ mark := by
        rintro rfl
        exact Bool.eq_false_iff.mp noName isName
      simp only [isSpecial, isSpace_of_isNameChar isName, Bool.false_or, Bool.or_eq_false_iff,
        beq_eq_false_iff_ne]
      and_intros <;> exact other (by decide)
    · decide
  rw [classify_of_plain plain]

/-- A text without classes is left behind trivia. -/
theorem Lexed.unclassed_behind_trivia
    {token : Token}
    {rest : List Token}
    (lexed : Lexed (token :: rest))
    (unclassed : Unclassed (Token.join (token :: rest)))
    (trivia : token.kind.isTrivia = true) :
    Unclassed (Token.join rest) := by
  obtain ⟨first, more, kind, text⟩ := lexed.exists_first
  have noName : ¬ (isNameChar first = true ∨ first = '\\') := by
    intro isName
    rw [kind, classify_of_isNameChar isName] at trivia
    exact absurd trivia nofun
  obtain ⟨noName, noBackslash⟩ := not_or.mp noName
  have whole : Token.join (token :: rest) =
      first :: more.take (classify .css 0 first more).2 ++ Token.join rest := by
    rw [← text]
    rfl
  rw [whole] at unclassed
  exact unclassed.behind (Bool.eq_false_iff.mpr noName) noBackslash

theorem ofNode_of_statement?
    {pre : Prelude}
    {nested : Bool}
    {semicolon : Option Span}
    {node : Node}
    (isStatement : pre.statement? nested semicolon = some node) :
    Exported.ofNode node = [] := by
  unfold Prelude.statement? at isStatement
  split at isStatement
  · obtain rfl := Option.some.inj isStatement
    rfl
  · split at isStatement
    · obtain rfl := Option.some.inj isStatement
      rfl
    · exact absurd isStatement nofun

theorem Ends.ofForest_eq_nil
    {nested : Bool}
    {tail : List Token}
    {last : List Node}
    (ends : Ends nested tail last) :
    Exported.ofForest last = [] := by
  cases ends with
  | closed => rfl
  | unfinished _ isStatement =>
      rw [Exported.ofForest, ofNode_of_statement? isStatement]
      rfl

/-- A prelude without an at-keyword has the text that its tokens begin with. -/
theorem text_ofTokens_prefix
    {tokens : List Token}
    (isPrelude : IsPrelude tokens)
    (noKeyword : (Prelude.ofTokens tokens).keyword = none) :
    (Prelude.ofTokens tokens).text <+: Token.join tokens := by
  cases tokens with
  | nil => exact isPrelude.elim
  | cons first rest =>
      have isSolid : first.kind.isTrivia = false := by
        have begins := isPrelude.1
        cases kind : first.kind <;> simp_all [TokenKind.beginsPrelude, TokenKind.isTrivia]
      have made : (Prelude.ofTokens (first :: rest)).reversed = (first :: rest).reverse := by
        rw [Prelude.ofTokens] at noKeyword ⊢
        split
        · next keyword =>
            rw [if_pos keyword] at noKeyword
            exact absurd noKeyword (Option.some_ne_none first)
        · rfl
      obtain ⟨inner, trail, rfl, content, -⟩ :=
        @Prelude.exists_content_eq (Prelude.ofTokens (first :: rest)) first rest
          (by rw [made, List.reverse_reverse]) isSolid
      unfold Prelude.text
      rw [content, ← List.cons_append, Token.join_append]
      exact List.prefix_append _ _

/-- A block behind a text without classes has no other classes than its contents. -/
theorem ofNode_toNode_of_unclassed
    {head rest : List Token}
    {nodes : List Node}
    (isHead : head = [] ∨ IsPrelude head)
    (unclassed : Unclassed (Token.join (head ++ rest)))
    (inner : Exported.ofForest nodes = [])
    (brace : Token)
    (close : Span) :
    Exported.ofNode (((Prelude.ofTokens head).toHeader brace).toNode nodes close) = [] := by
  unfold Prelude.toHeader
  cases keyword : (Prelude.ofTokens head).keyword with
  | some word =>
      change (if _ then [] else Exported.ofForest nodes) = []
      rw [inner, ite_self]
  | none =>
      have isFront : (Prelude.ofTokens head).text <+: Token.join (head ++ rest) := by
        rw [Token.join_append]
        refine List.IsPrefix.trans ?_ (List.prefix_append _ _)
        rcases isHead with rfl | isPrelude
        · exact List.prefix_rfl
        · exact text_ofTokens_prefix isPrelude keyword
      change Selector.classes _ ++ Exported.ofForest nodes = []
      rw [unclassed.classes_of_prefix isFront, inner]
      rfl

/-- Tokens of a text without classes read as nodes without any. -/
theorem Reads.ofForest_eq_nil
    {nested : Bool}
    {tokens rest : List Token}
    {nodes : List Node}
    (reads : Reads nested tokens nodes rest)
    (lexed : Lexed tokens)
    (unclassed : Unclassed (Token.join tokens)) :
    Exported.ofForest nodes = [] ∧ Lexed rest ∧ Unclassed (Token.join rest) := by
  -- On the reading: each constructor goes on behind trivia, a semicolon or a brace.
  induction reads with
  | done nested tokens => exact ⟨rfl, lexed, unclassed⟩
  | @skip _ token tokens _ _ separates _ inductionHypothesis =>
      refine inductionHypothesis lexed.tail ?_
      rcases separates with kind | kind
      · exact lexed.unclassed_behind_trivia unclassed (by rw [kind]; rfl)
      · exact @Lexed.unclassed_behind_mark [] tokens token ';' lexed unclassed (by rw [kind]; rfl)
  | @comment _ token tokens _ _ isComment _ inductionHypothesis =>
      exact inductionHypothesis lexed.tail
        (lexed.unclassed_behind_trivia unclassed (by rw [isComment]; rfl))
  | @statement _ head tokens _ semicolon _ _ _ _ isSemicolon isStatement _ inductionHypothesis =>
      have behind := lexed.unclassed_behind_mark unclassed
        (show markOf? semicolon.kind = some ';' by rw [isSemicolon]; rfl)
      obtain ⟨nothing, later⟩ := inductionHypothesis lexed.parts.2.tail behind
      rw [Exported.ofForest, ofNode_of_statement? isStatement, nothing]
      exact ⟨rfl, later⟩
  | @block _ head body tail tokens _ brace close inner last _ isHead isOpen _ ends isClose _
      withinHypothesis laterHypothesis =>
      obtain ⟨noInner, tailLexed, tailUnclassed⟩ := withinHypothesis lexed.parts.2.tail
        (lexed.unclassed_behind_mark unclassed
          (show markOf? brace.kind = some '{' by rw [isOpen]; rfl))
      obtain ⟨nothing, later⟩ := laterHypothesis tailLexed.parts.2.tail
        (tailLexed.unclassed_behind_mark tailUnclassed
          (show markOf? close.kind = some '}' by rw [isClose]; rfl))
      have all : Exported.ofForest (inner ++ last) = [] := by
        rw [Exported.ofForest_append, noInner, ends.ofForest_eq_nil]
        rfl
      rw [Exported.ofForest, ofNode_toNode_of_unclassed isHead unclassed all, nothing]
      exact ⟨rfl, later⟩

/-- The block that tokens begin with, and its header: what is behind its brace and what
is behind the block have no classes if their text has none. -/
structure Heads
    (head body : List Token)
    (brace : Token)
    (nodes : List Node) : Prop where
  isPrelude : IsPrelude head
  isOpen : brace.kind = .openBrace
  nodes : ∃ inner close later, nodes =
    ((Prelude.ofTokens head).toHeader brace).toNode inner close :: later ∧
      (Lexed body → Unclassed (Token.join body) →
        Exported.ofForest inner = [] ∧ Exported.ofForest later = [])

/-- What begins with plain text outside all blocks and reads begins with a block. -/
theorem ReadsAll.exists_heads
    {first : Token}
    {rest : List Token}
    {nodes : List Node}
    (reads : ReadsAll (first :: rest) nodes)
    (isText : first.kind = .text) :
    ∃ others brace body, first :: rest = (first :: others) ++ brace :: body ∧
      Heads (first :: others) body brace nodes := by
  have noStatement {others : List Token} {semicolon : Option Span} {node : Node} :
      (Prelude.ofTokens (first :: others)).statement? false semicolon ≠ some node := by
    intro isStatement
    refine keyword_ne_none_of_statement? isStatement ?_
    rw [Prelude.ofTokens, if_neg (by rw [isText]; decide)]
  obtain ⟨front, tail, last, reads, ends, rfl⟩ := reads
  generalize whole : first :: rest = tokens at reads
  cases reads with
  | done =>
      subst whole
      cases ends with
      | unfinished _ isStatement => exact absurd isStatement noStatement
  | skip separates =>
      obtain ⟨rfl, -⟩ := List.cons.inj whole
      rw [isText] at separates
      exact absurd separates (by decide)
  | comment isComment =>
      obtain ⟨rfl, -⟩ := List.cons.inj whole
      exact absurd (isText.symm.trans isComment) (by decide)
  | @statement _ head _ _ _ _ _ isPrelude _ _ isStatement =>
      cases head with
      | nil => exact isPrelude.elim
      | cons other others =>
          obtain ⟨rfl, -⟩ := List.cons.inj whole
          exact absurd isStatement noStatement
  | @block _ head body tailToo tokens _ brace close inner lastToo later isHead isOpen within
      endsToo isClose readsLater =>
      cases head with
      | nil =>
          obtain ⟨rfl, -⟩ := List.cons.inj whole
          exact absurd (isText.symm.trans isOpen) (by decide)
      | cons other others =>
          obtain ⟨rfl, rfl⟩ := List.cons.inj whole
          refine ⟨others, brace, body, rfl, isHead.resolve_left (List.cons_ne_nil _ _), isOpen,
            inner ++ lastToo, close.span, later ++ last, rfl, fun lexed unclassed => ?_⟩
          obtain ⟨noInner, tailLexed, tailUnclassed⟩ := within.ofForest_eq_nil lexed unclassed
          have nothing := readsLater.ofForest_eq_nil tailLexed.parts.2.tail
            (tailLexed.unclassed_behind_mark tailUnclassed
              (show markOf? close.kind = some '}' by rw [isClose]; rfl))
          rw [Exported.ofForest_append, Exported.ofForest_append, noInner, nothing.1,
            ends.ofForest_eq_nil, endsToo.ofForest_eq_nil]
          exact ⟨rfl, rfl⟩

/-- A text that begins with a dot has a rule in front: where its brace stands, and what is
exported if nothing behind the brace has a class. -/
structure HasRule (rest front back : Text) : Prop where
  split : rest = front ++ '{' :: back
  carried : Bare ('.' :: front) → Carried 0 ('.' :: front)
  exported : Bare ('.' :: front) → Unclassed back →
    (parse ('.' :: rest)).sheet.exported =
      (classes (Text.dropEndWhile isSpace ('.' :: front))).eraseDups

theorem exists_hasRule
    {rest : Text}
    (faultless : (parse ('.' :: rest)).faults = []) :
    ∃ front back, HasRule rest front back := by
  obtain ⟨first, more, placed, isText⟩ := exists_tokens_cons '.' rest
  rw [classify_dot] at isText
  have reads := readsAll_parse faultless
  have lexed := lexed_tokens ('.' :: rest)
  rw [placed] at reads lexed
  obtain ⟨others, brace, body, split, heads⟩ := reads.exists_heads isText
  obtain ⟨inner, close, later, nodes, nothing⟩ := heads.nodes
  rw [split] at lexed
  have headLexed : Lexed (first :: others) := lexed.parts.1
  have braceText : brace.text = ['{'] :=
    lexed.parts.2.text_of_markOf? (by rw [heads.isOpen]; rfl)
  have whole : '.' :: rest = Token.join (first :: others) ++ '{' :: Token.join body := by
    rw [← join_tokens .css ('.' :: rest), placed, split, Token.join_append]
    change _ ++ (brace.text ++ Token.join body) = _
    rw [braceText]
    rfl
  obtain ⟨front, isHead⟩ : ∃ front, Token.join (first :: others) = '.' :: front := by
    cases joined : Token.join (first :: others) with
    | nil =>
        rw [joined] at whole
        exact absurd (List.cons.inj whole).1 (by decide)
    | cons c front =>
        rw [joined] at whole
        exact ⟨front, by rw [(List.cons.inj whole).1]⟩
  unfold Lexed at headLexed
  rw [isHead] at whole headLexed
  refine ⟨front, Token.join body, (List.cons.inj whole).2, fun bare => ?_, fun bare unclassed => ?_⟩
  · exact (isPrelude_iff_carried bare isText headLexed).mp heads.isPrelude
  · obtain ⟨noInner, noLater⟩ := nothing lexed.parts.2.tail unclassed
    obtain ⟨span, header⟩ :=
      exists_toHeader_of_areBare (areBare_of_mem_lexemes bare headLexed) isText brace
    unfold Stylesheet.exported
    rw [nodes, header, isHead, Exported.ofForest, noLater, List.append_nil]
    change (classes _ ++ Exported.ofForest inner).eraseDups = _
    rw [noInner, List.append_nil]

end Parser

namespace Selector

/-! ## Names -/

/-- The names that an escaped class exports: no braces and no quotes, no semicolon
outside parentheses, and no space at the end. -/
structure Survives (name : Text) : Prop where
  braces : '{' ∉ name ∧ '}' ∉ name
  quotes : '"' ∉ name ∧ '\'' ∉ name
  semicolons : ∀ front back, name = front ++ ';' :: back → front.foldl parenLevel 0 ≠ 0
  noLastSpace : name.getLast? ≠ some ' '

/-- The class of a written name that is cut off behind a backslash. -/
theorem Written.classes_cut
    {name text : Text}
    (written : Written name text)
    (noDigit : ∀ c ∈ text.head?, c.isDigit = false) :
    classes (classText text '\\') = if name = [] then [] else [name] := by
  refine classes_dot ?_ ?_
  · rw [written.identifier_append, identifier_lone, List.append_nil]
  · intro c isFirst
    cases text with
    | nil => exact Option.some.inj isFirst ▸ rfl
    | cons first rest => exact noDigit c isFirst

/-- A rule whose brace stands behind a backslash in a written name exports the front of the
name. -/
theorem Written.exported_of_cut
    {before after beforeText afterText rest : Text}
    (first : Written before beforeText)
    (second : Written after afterText)
    (quotes : '"' ∉ before ∧ '\'' ∉ before)
    (noDigit : ∀ c ∈ beforeText.head?, c.isDigit = false)
    (rule : HasRule rest (beforeText ++ ['\\']) (afterText ++ [' ', '{', '}'])) :
    (parse ('.' :: rest)).sheet.exported = if before = [] then [] else [before] := by
  have unclassed : Unclassed (afterText ++ [' ', '{', '}']) :=
    ⟨after, afterText, _, rfl, second, by simp [IsRest]⟩
  have trimmed : Text.dropEndWhile isSpace (classText beforeText '\\') =
      classText beforeText '\\' := by
    have solid : ∀ c ∈ (classText beforeText '\\').getLast?, isSpace c = false := by
      rw [getLast?_classText]
      rintro c ⟨⟩
      rfl
    have kept := @dropEndWhile_append isSpace (classText beforeText '\\') []
      (List.forall_mem_nil _) solid
    rwa [List.append_nil] at kept
  refine (rule.exported (first.bare_classText quotes (.inr rfl)) unclassed).trans ?_
  change (classes (Text.dropEndWhile isSpace (classText beforeText '\\'))).eraseDups = _
  rw [trimmed, first.classes_cut noDigit]
  split <;> rfl

/-- In front of the brace of a rule behind a name there is one space. -/
theorem eq_space_of_braces_eq_append
    {between back : Text}
    (split : [' ', '{', '}'] = between ++ '{' :: back) :
    between = [' '] := by
  cases between with
  | nil => exact absurd (List.cons.inj split).1 (by decide)
  | cons space more =>
      obtain ⟨rfl, later⟩ := List.cons.inj split
      cases more with
      | nil => rfl
      | cons second others =>
          obtain ⟨-, closed⟩ := List.cons.inj later
          cases others with
          | nil => exact absurd (List.cons.inj closed).1 (by decide)
          | cons third others => exact absurd (List.cons.inj closed).2 (by simp)

/-- If the rule of a written name has no faults, a prelude takes in the name, or a brace
cuts it off. -/
theorem Written.carried_or_cut
    {name text : Text}
    (written : Written name text)
    (quotes : '"' ∉ name ∧ '\'' ∉ name)
    (noDigit : ∀ c ∈ text.head?, c.isDigit = false)
    (faultless : (parse (ruleText text)).faults = []) :
    Carried 0 name ∨ ∃ before after, name = before ++ '{' :: after ∧
      (parse (ruleText text)).sheet.exported = if before = [] then [] else [before] := by
  obtain ⟨front, back, rule⟩ := exists_hasRule faultless
  have isMark : IsMark '{' := ⟨rfl, by decide, by decide⟩
  rcases written.cases_of_mark isMark rule.split with
    ⟨before, after, beforeText, afterText, rfl, rfl, rfl, first, second⟩ |
      ⟨between, rfl, isRest⟩
  · right
    have noQuotes : '"' ∉ before ∧ '\'' ∉ before :=
      ⟨fun present => quotes.1 (List.mem_append_left _ present),
        fun present => quotes.2 (List.mem_append_left _ present)⟩
    have noDigitToo : ∀ c ∈ beforeText.head?, c.isDigit = false := by
      intro c isFirst
      have split := rule.split
      cases beforeText with
      | nil => exact absurd isFirst.symm (Option.some_ne_none c)
      | cons other more =>
          obtain rfl := Option.some.inj isFirst
          cases text with
          | nil => exact (List.cons.inj split).1 ▸ rfl
          | cons head others => exact noDigit _ (congrArg some (List.cons.inj split).1)
    exact ⟨before, after, rfl, first.exported_of_cut second noQuotes noDigitToo rule⟩
  · left
    have isClass : '.' :: (text ++ between) = classText text ' ' := by
      rw [eq_space_of_braces_eq_append isRest]
      rfl
    have bare : Bare ('.' :: (text ++ between)) :=
      isClass ▸ written.bare_classText quotes (.inl rfl)
    have carried := rule.carried bare
    rw [isClass] at carried
    exact (written.carried_classText (not_shapes_of_isSpace rfl)).mp carried

theorem withoutLastSpace_eq_self_iff {name : Text} :
    withoutLastSpace name = name ↔ name.getLast? ≠ some ' ' := by
  unfold withoutLastSpace
  split
  · next isLast =>
      refine ⟨fun same => ?_, fun absent => absurd isLast absent⟩
      have shorter := congrArg List.length same
      rw [List.length_dropLast] at shorter
      cases name with
      | nil => exact absurd isLast nofun
      | cons c rest =>
          rw [List.length_cons] at shorter
          omega
  · next noLast => exact ⟨fun _ => noLast, fun _ => rfl⟩

theorem survives_iff {name : Text} :
    Survives name ↔
      Carried 0 name ∧ ('"' ∉ name ∧ '\'' ∉ name) ∧ name.getLast? ≠ some ' ' := by
  rw [carried_iff]
  constructor
  · rintro ⟨⟨noOpen, noClose⟩, quotes, semicolons, noLastSpace⟩
    exact ⟨⟨noOpen, noClose, semicolons⟩, quotes, noLastSpace⟩
  · rintro ⟨⟨noOpen, noClose, semicolons⟩, quotes, noLastSpace⟩
    exact ⟨⟨noOpen, noClose⟩, quotes, semicolons, noLastSpace⟩

instance (name : Text) : Decidable (Survives name) :=
  decidable_of_iff _ survives_iff.symm

/-- Written as a class, exactly the names that survive are exported without faults. -/
theorem exports_serialized_iff
    {name : Text}
    (nonempty : name ≠ []) :
    ((parse (ruleText (serialize name))).faults = [] ∧
        (parse (ruleText (serialize name))).sheet.exported = [name]) ↔
      Survives name := by
  have written := written_serialize name
  have noDigit := head?_serialize name
  constructor
  · rintro ⟨faultless, exported⟩
    have quotes : '"' ∉ name ∧ '\'' ∉ name :=
      Classical.byContradiction fun quoted => written.faults_of_quote quoted faultless
    have carried : Carried 0 name := by
      rcases written.carried_or_cut quotes noDigit faultless with carried | cut
      · exact carried
      · obtain ⟨before, after, isName, cutOff⟩ := cut
        rw [exported] at cutOff
        split at cutOff
        · exact absurd cutOff (List.cons_ne_nil name [])
        · have lengths := congrArg List.length (isName.symm.trans (List.cons.inj cutOff).1)
          rw [List.length_append, List.length_cons] at lengths
          omega
    obtain ⟨-, shown⟩ := written.parse_rule quotes carried noDigit
    rw [exported] at shown
    refine survives_iff.mpr ⟨carried, quotes, withoutLastSpace_eq_self_iff.mp ?_⟩
    split at shown
    · exact absurd shown (List.cons_ne_nil name [])
    · exact (List.cons.inj shown).1.symm
  · intro survives
    obtain ⟨carried, quotes, noLastSpace⟩ := survives_iff.mp survives
    obtain ⟨faultless, shown⟩ := written.parse_rule quotes carried noDigit
    rw [withoutLastSpace_eq_self_iff.mpr noLastSpace, if_neg nonempty] at shown
    exact ⟨faultless, shown⟩

theorem exports_serialized_marks :
    "1 .a(;)é".toList ≠ [] ∧ Survives "1 .a(;)é" ∧
      serialize "1 .a(;)é" = "\\31 \\ \\.a\\(\\;\\)é".toList ∧
        (parse (ruleText (serialize "1 .a(;)é"))).faults = [] ∧
          (parse (ruleText (serialize "1 .a(;)é"))).sheet.exported = ["1 .a(;)é".toList] := by
  have survives : Survives "1 .a(;)é" := by decide +kernel
  have nonempty : "1 .a(;)é".toList ≠ [] := by decide +kernel
  exact ⟨nonempty, survives, by decide +kernel, (exports_serialized_iff nonempty).mpr survives⟩

/-- A brace opens a block behind a backslash too, and an escaped space at the end of a
selector is left out. -/
theorem not_exported_of_brace_or_space :
    ruleText (serialize "\x7b") = ".\\\x7b \x7b\x7d".toList ∧
      (parse (ruleText (serialize "\x7b"))).faults ≠ [] ∧
        (parse (ruleText (serialize "\x7b"))).sheet.exported ≠ ["\x7b".toList] ∧
          ruleText (serialize "a ") = ".a\\  \x7b\x7d".toList ∧
            (parse (ruleText (serialize "a "))).sheet.exported = ["a".toList] := by
  decide +kernel

end Selector
end StyleTypings
