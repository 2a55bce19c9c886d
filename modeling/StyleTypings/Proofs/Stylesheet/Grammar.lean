import StyleTypings.Proofs.Stylesheet.Faultless
import StyleTypings.Proofs.Text.Joining

/-!
# The grammar of style sheets

The grammar is about the tokens that are no trivia:

    sheet       = (";" | at-rule | rule)* end
    block       = "{" (";" | at-rule | rule | declaration)* "}"
    at-rule     = at-keyword prelude? (";" | block | nothing before "}" or the end)
    rule        = prelude? block
    declaration = prelude before ";" or "}"

A prelude takes in as many tokens as it can, and a declaration has a colon
somewhere in its text. A text is parsed without faults exactly if all its comments
and strings end and the grammar derives its tokens.
-/

namespace StyleTypings

/-- Whether a rule or a declaration may begin with a token of a kind. -/
def TokenKind.beginsItem : TokenKind → Bool
  | .atKeyword | .semicolon | .openBrace | .closeBrace => false
  | _ => true

namespace Parser

/-- A prelude before some tokens: a run that none of them continues. -/
def Fills (run rest : List Token) : Prop :=
  Runs 0 run ∧
    ∀ next ∈ rest.head?, next.kind.continuesPrelude (nesting 0 run) = false

/-- The grammar derives the tokens at the front of a list and leaves the rest, in a
block or outside all of them. -/
inductive Derives (source : Text) : Bool → List Token → List Token → Prop
  | nothing (nested : Bool) (tokens : List Token) : Derives source nested tokens tokens
  | semicolon
      {nested : Bool}
      {semicolon : Token}
      {tokens rest : List Token}
      (isSemicolon : semicolon.kind = .semicolon)
      (later : Derives source nested tokens rest) :
      Derives source nested (semicolon :: tokens) rest
  /-- An at-rule that a semicolon ends. -/
  | atStatement
      {nested : Bool}
      {keyword semicolon : Token}
      {run tokens rest : List Token}
      (isKeyword : keyword.kind = .atKeyword)
      (fills : Fills run (semicolon :: tokens))
      (isSemicolon : semicolon.kind = .semicolon)
      (later : Derives source nested tokens rest) :
      Derives source nested (keyword :: (run ++ semicolon :: tokens)) rest
  /-- An at-rule with a block. -/
  | atBlock
      {nested : Bool}
      {keyword brace close : Token}
      {run body tokens rest : List Token}
      (isKeyword : keyword.kind = .atKeyword)
      (fills : Fills run (brace :: body))
      (isOpen : brace.kind = .openBrace)
      (within : Derives source true body (close :: tokens))
      (isClose : close.kind = .closeBrace)
      (later : Derives source nested tokens rest) :
      Derives source nested (keyword :: (run ++ brace :: body)) rest
  /-- An at-rule that a closing brace or the end of the text ends. -/
  | atLast
      {nested : Bool}
      {keyword : Token}
      {run tokens rest : List Token}
      (isKeyword : keyword.kind = .atKeyword)
      (fills : Fills run tokens)
      (isLast : ∀ next ∈ tokens.head?, next.kind = .closeBrace)
      (later : Derives source nested tokens rest) :
      Derives source nested (keyword :: (run ++ tokens)) rest
  | rule
      {nested : Bool}
      {brace close : Token}
      {run body tokens rest : List Token}
      (begins : ∀ first ∈ run.head?, first.kind.beginsItem = true)
      (fills : Fills run (brace :: body))
      (isOpen : brace.kind = .openBrace)
      (within : Derives source true body (close :: tokens))
      (isClose : close.kind = .closeBrace)
      (later : Derives source nested tokens rest) :
      Derives source nested (run ++ brace :: body) rest
  | declaration
      {first stop : Token}
      {run tokens rest : List Token}
      (begins : first.kind.beginsItem = true)
      (fills : Fills (first :: run) (stop :: tokens))
      (stops : stop.kind = .semicolon ∨ stop.kind = .closeBrace)
      (hasColon : ':' ∈ (first.span.through (run.getLastD first).span).slice source)
      (later : Derives source true (stop :: tokens) rest) :
      Derives source true (first :: (run ++ stop :: tokens)) rest

/-- The tokens that are no trivia. -/
def solid (tokens : List Token) : List Token :=
  tokens.filter fun token => !token.kind.isTrivia

/-! ## Trivia -/

@[simp] theorem solid_append (front back : List Token) :
    solid (front ++ back) = solid front ++ solid back :=
  List.filter_append front back

theorem solid_cons_of_trivia
    {token : Token}
    (trivia : token.kind.isTrivia = true)
    (tokens : List Token) :
    solid (token :: tokens) = solid tokens :=
  List.filter_cons_of_neg (by simp [trivia])

theorem solid_cons
    {token : Token}
    (isSolid : token.kind.isTrivia = false)
    (tokens : List Token) :
    solid (token :: tokens) = token :: solid tokens :=
  List.filter_cons_of_pos (by simp [isSolid])

/-- A token of a kind that is no trivia stays. -/
theorem solid_cons_of_kind
    {token : Token}
    {kind : TokenKind}
    (isKind : token.kind = kind)
    (tokens : List Token)
    (isSolid : kind.isTrivia = false := by rfl) :
    solid (token :: tokens) = token :: solid tokens :=
  solid_cons (isKind ▸ isSolid) tokens

/-- Trivia leaves the nesting as it is. -/
theorem nesting_solid (depth : Nat) (tokens : List Token) :
    nesting depth (solid tokens) = nesting depth tokens := by
  induction tokens generalizing depth with
  | nil => rfl
  | cons token rest inductionHypothesis =>
      cases trivia : token.kind.isTrivia with
      | false =>
          rw [solid_cons trivia]
          exact inductionHypothesis (token.kind.depthAfter depth)
      | true =>
          have level : token.kind.depthAfter depth = depth := by
            cases kind : token.kind <;> simp_all [TokenKind.isTrivia, TokenKind.depthAfter]
          rw [solid_cons_of_trivia trivia, inductionHypothesis]
          unfold nesting
          rw [List.foldl_cons, level]

/-- Preludes take in all trivia. -/
theorem runs_solid_iff (depth : Nat) (tokens : List Token) :
    Runs depth (solid tokens) ↔ Runs depth tokens := by
  induction tokens generalizing depth with
  | nil => exact Iff.rfl
  | cons token rest inductionHypothesis =>
      cases trivia : token.kind.isTrivia with
      | false =>
          rw [solid_cons trivia]
          exact and_congr_right fun _ => inductionHypothesis (token.kind.depthAfter depth)
      | true =>
          have taken : token.kind.continuesPrelude depth = true ∧
              token.kind.depthAfter depth = depth := by
            cases kind : token.kind <;>
              simp_all [TokenKind.isTrivia, TokenKind.depthAfter, TokenKind.continuesPrelude]
          rw [solid_cons_of_trivia trivia, inductionHypothesis, Runs, taken.2]
          exact (and_iff_right taken.1).symm

/-- The last of the solid tokens is the last token, if that is solid. -/
theorem getLastD_solid
    {first : Token}
    {rest : List Token}
    (isSolid : (rest.getLastD first).kind.isTrivia = false) :
    (solid rest).getLastD first = rest.getLastD first := by
  rcases List.eq_nil_or_concat rest with rfl | ⟨init, last, rfl⟩
  · rfl
  · rw [List.concat_eq_append, List.getLastD_concat] at isSolid ⊢
    rw [solid_append, solid_cons isSolid]
    exact List.getLastD_concat

/-- The content of a prelude without an at-keyword is all of it up to the trivia at
the end. -/
theorem Prelude.exists_content_eq
    {pre : Prelude}
    {first : Token}
    {rest : List Token}
    (tokens : pre.reversed.reverse = first :: rest)
    (isSolid : first.kind.isTrivia = false) :
    ∃ inner trail, rest = inner ++ trail ∧ pre.content = first :: inner ∧
      solid inner = solid rest ∧
      (inner.getLastD first).kind.isTrivia = false := by
  let isTrivia := fun token : Token => token.kind.isTrivia
  have split : first :: rest =
      (pre.reversed.dropWhile isTrivia).reverse ++
        (pre.reversed.takeWhile isTrivia).reverse := by
    rw [← tokens, ← List.reverse_append, List.takeWhile_append_dropWhile]
  have trailing : solid (pre.reversed.takeWhile isTrivia).reverse = [] := by
    refine List.filter_eq_nil_iff.mpr fun token present => ?_
    have trivia := List.all_eq_true.mp List.all_takeWhile token (List.mem_reverse.mp present)
    simpa using trivia
  have last := List.head?_dropWhile_not isTrivia pre.reversed
  unfold content
  change ∃ inner trail, rest = inner ++ trail ∧
    (pre.reversed.dropWhile isTrivia).reverse.dropWhile isTrivia = first :: inner ∧ _
  cases kept : (pre.reversed.dropWhile isTrivia).reverse with
  | nil =>
      rw [kept, List.nil_append] at split
      rw [← split, solid_cons isSolid] at trailing
      exact absurd trailing nofun
  | cons head inner =>
      rw [kept, List.cons_append] at split
      obtain ⟨rfl, rest_eq⟩ := List.cons.inj split
      refine ⟨inner, _, rest_eq, List.dropWhile_cons_of_neg (by simpa [isTrivia] using isSolid),
        ?_, ?_⟩
      · rw [rest_eq, solid_append, trailing, List.append_nil]
      · rw [← List.getLast?_reverse, kept, List.getLast?_cons] at last
        rw [List.getLastD_eq_getLast?]
        exact last

/-- What a prelude is without a block: an at-statement, or in a block a declaration
with a colon. -/
theorem Prelude.isStatement_iff
    {source : Text}
    {before rest after : List Token}
    {first : Token}
    (split : Lexer.tokens .css source = before ++ (first :: rest ++ after))
    (begins : first.kind.beginsPrelude = true)
    (nested : Bool)
    (semicolon : Option Span) :
    (∃ node, (ofTokens (first :: rest)).statement? nested semicolon = some node) ↔
      first.kind = .atKeyword ∨
        (nested = true ∧
          ':' ∈ (first.span.through ((solid rest).getLastD first).span).slice source) := by
  rw [ofTokens]
  split
  · next isKeyword => exact ⟨fun _ => .inl isKeyword, fun _ => ⟨_, rfl⟩⟩
  · next noKeyword =>
      have isSolid : first.kind.isTrivia = false := by
        cases kind : first.kind <;> simp_all [TokenKind.beginsPrelude, TokenKind.isTrivia]
      obtain ⟨inner, trail, rfl, content, sameSolid, lastSolid⟩ :=
        @exists_content_eq ⟨none, (first :: rest).reverse, nesting 0 (first :: rest)⟩ first
          rest (List.reverse_reverse _) isSolid
      have split' : Lexer.tokens .css source =
          before ++ (first :: inner ++ (trail ++ after)) := by
        simpa using split
      have text := Lexer.slice_of_tokens_eq_append split'
      have last := getLastD_solid lastSolid
      rw [← sameSolid, last, text, ← Text.isSome_splitFirst?_iff]
      unfold statement? span? Prelude.text
      rw [content]
      simp only [noKeyword, false_or]
      cases nested with
      | false =>
          refine ⟨?_, fun found => absurd found.1 Bool.false_ne_true⟩
          rintro ⟨node, found⟩
          exact absurd found (Option.some_ne_none node).symm
      | true =>
          cases Text.splitFirst? [':'] (Token.join (first :: inner)) with
          | none =>
              refine ⟨?_, fun found => absurd found.2 Bool.false_ne_true⟩
              rintro ⟨node, found⟩
              exact absurd found (Option.some_ne_none node).symm
          | some found => exact ⟨fun _ => ⟨rfl, rfl⟩, fun _ => ⟨_, rfl⟩⟩

/-! ## What is read derives -/

theorem Derives.trans
    {source : Text}
    {nested : Bool}
    {tokens middle rest : List Token}
    (first : Derives source nested tokens middle)
    (second : Derives source nested middle rest) :
    Derives source nested tokens rest := by
  induction first with
  | nothing nested tokens => exact second
  | semicolon isSemicolon _ inductionHypothesis =>
      exact .semicolon isSemicolon (inductionHypothesis second)
  | atStatement isKeyword fills isSemicolon _ inductionHypothesis =>
      exact .atStatement isKeyword fills isSemicolon (inductionHypothesis second)
  | atBlock isKeyword fills isOpen within isClose _ _ inductionHypothesis =>
      exact .atBlock isKeyword fills isOpen within isClose (inductionHypothesis second)
  | atLast isKeyword fills isLast _ inductionHypothesis =>
      exact .atLast isKeyword fills isLast (inductionHypothesis second)
  | rule begins fills isOpen within isClose _ _ inductionHypothesis =>
      exact .rule begins fills isOpen within isClose (inductionHypothesis second)
  | declaration begins fills stops hasColon _ inductionHypothesis =>
      exact .declaration begins fills stops hasColon (inductionHypothesis second)

/-- The solid tokens of a prelude that others do not continue: an at-keyword with a
prelude of the grammar behind it, or such a prelude that begins an item. -/
theorem IsPrelude.solid_cases
    {head : List Token}
    (isPrelude : IsPrelude head)
    (rest : List Token)
    (stops : ∀ next ∈ rest.head?, next.kind.continuesPrelude (nesting 0 head) = false) :
    ∃ first run, head = first :: run ∧ solid head = first :: solid run ∧
      (first.kind = .atKeyword ∧ Fills (solid run) rest ∨
        first.kind ≠ .atKeyword ∧ first.kind.beginsItem = true ∧
          Fills (first :: solid run) rest) := by
  cases head with
  | nil => exact isPrelude.elim
  | cons first run =>
      obtain ⟨begins, runs⟩ := isPrelude
      by_cases isKeyword : first.kind = .atKeyword
      · have runs' : Runs 0 run := by
          have later := runs.2
          rwa [isKeyword] at later
        have level : nesting 0 (first :: run) = nesting 0 run := by
          change nesting (first.kind.depthAfter 0) run = nesting 0 run
          rw [isKeyword]
          rfl
        refine ⟨first, run, rfl, solid_cons_of_kind isKeyword run,
          .inl ⟨isKeyword, (runs_solid_iff 0 run).mpr runs', ?_⟩⟩
        rwa [nesting_solid, ← level]
      · have begun : first.kind.beginsItem = true ∧ first.kind.isTrivia = false := by
          cases kind : first.kind <;>
            simp_all [TokenKind.beginsPrelude, TokenKind.beginsItem, TokenKind.isTrivia]
        have kept := solid_cons begun.2 run
        refine ⟨first, run, rfl, kept, .inr ⟨isKeyword, begun.1, ?_, ?_⟩⟩
        · rwa [← kept, runs_solid_iff]
        · rwa [← kept, nesting_solid]

/-- What ends a block or a text derives. -/
theorem derives_of_ends
    {source : Text}
    {nested : Bool}
    {before tail after : List Token}
    {last : List Node}
    (split : Lexer.tokens .css source = before ++ (tail ++ after))
    (ends : Ends nested tail last)
    (stops : Stops nested after) :
    Derives source nested (solid tail ++ solid after) (solid after) := by
  cases ends with
  | closed => exact .nothing nested (solid after)
  | @unfinished _ node isPrelude isStatement =>
      have isLast : ∀ next ∈ (solid after).head?, next.kind = .closeBrace := by
        cases stops with
        | source => exact nofun
        | brace isClose others =>
            rw [solid_cons_of_kind isClose]
            rintro next ⟨⟩
            exact isClose
      obtain ⟨first, run, rfl, kept, form⟩ := isPrelude.solid_cases (solid after)
        fun next present => by rw [isLast next present]; rfl
      rw [kept]
      rcases form with ⟨isKeyword, fills⟩ | ⟨noKeyword, begins, fills⟩
      · exact .atLast isKeyword fills isLast (.nothing nested _)
      · have declares := (Prelude.isStatement_iff split isPrelude.1 nested none).mp
          ⟨node, isStatement⟩
        obtain ⟨rfl, hasColon⟩ := declares.resolve_left noKeyword
        cases stops with
        | brace isClose others =>
            rw [solid_cons_of_kind isClose] at fills ⊢
            exact .declaration begins fills (.inr isClose) hasColon (.nothing true _)

/-- What the tokens of a text read as derives. -/
theorem Reads.derives
    {source : Text}
    {nested : Bool}
    {tokens rest : List Token}
    {nodes : List Node}
    (reads : Reads nested tokens nodes rest)
    (within : tokens <:+ Lexer.tokens .css source) :
    Derives source nested (solid tokens) (solid rest) := by
  induction reads with
  | done nested tokens => exact .nothing nested (solid tokens)
  | @skip _ token _ _ _ separates _ inductionHypothesis =>
      have later := inductionHypothesis ((List.suffix_cons _ _).trans within)
      rcases separates with space | isSemicolon
      · rw [solid_cons_of_trivia (by rw [space]; rfl)]
        exact later
      · rw [solid_cons_of_kind isSemicolon]
        exact .semicolon isSemicolon later
  | comment isComment _ inductionHypothesis =>
      rw [solid_cons_of_trivia (by rw [isComment]; rfl)]
      exact inductionHypothesis ((List.suffix_cons _ _).trans within)
  | @statement nested head tokens _ semicolon node _ isPrelude level isSemicolon isStatement _
      inductionHypothesis =>
      obtain ⟨before, split⟩ := within
      have later := inductionHypothesis
        ⟨before ++ (head ++ [semicolon]), by rw [← split]; simp⟩
      obtain ⟨first, run, rfl, kept, form⟩ :=
        isPrelude.solid_cases (semicolon :: solid tokens) <| by
          rintro next ⟨⟩
          rw [isSemicolon, level]
          rfl
      rw [solid_append, kept, solid_cons_of_kind isSemicolon]
      rcases form with ⟨isKeyword, fills⟩ | ⟨noKeyword, begins, fills⟩
      · exact .atStatement isKeyword fills isSemicolon later
      · have declares := (Prelude.isStatement_iff split.symm isPrelude.1 nested _).mp
          ⟨node, isStatement⟩
        obtain ⟨rfl, hasColon⟩ := declares.resolve_left noKeyword
        exact .declaration begins fills (.inl isSemicolon) hasColon
          (.semicolon isSemicolon later)
  | @block _ head body tail tokens rest brace close inner last _ isHead isOpen within' ends
      isClose _ withinHypothesis laterHypothesis =>
      obtain ⟨before, split⟩ := within
      obtain ⟨front, rfl, -⟩ := within'.exists_front
      have body := withinHypothesis ⟨before ++ (head ++ [brace]), by rw [← split]; simp⟩
      have later := laterHypothesis
        ⟨before ++ (head ++ brace :: (front ++ (tail ++ [close]))), by rw [← split]; simp⟩
      have ended : Derives source true (solid (tail ++ close :: tokens))
          (solid (close :: tokens)) := by
        have split' : Lexer.tokens .css source =
            (before ++ (head ++ brace :: front)) ++ (tail ++ close :: tokens) := by
          rw [← split]
          simp
        rw [solid_append]
        exact derives_of_ends split' ends (.brace isClose tokens)
      have contents := body.trans ended
      have stops : ∀ next ∈ (brace :: solid (front ++ (tail ++ close :: tokens))).head?,
          ∀ depth, next.kind.continuesPrelude depth = false := by
        rintro next ⟨⟩ depth
        rw [isOpen]
        rfl
      rw [solid_cons_of_kind isClose] at contents
      rw [solid_append, solid_cons_of_kind isOpen]
      rcases isHead with rfl | isPrelude
      · exact .rule nofun ⟨trivial, fun next present => stops next present _⟩ isOpen contents
          isClose later
      · obtain ⟨first, run, rfl, kept, form⟩ :=
          isPrelude.solid_cases _ fun next present => stops next present _
        rw [kept]
        rcases form with ⟨isKeyword, fills⟩ | ⟨noKeyword, begins, fills⟩
        · exact .atBlock isKeyword fills isOpen contents isClose later
        · refine .rule ?_ fills isOpen contents isClose later
          rintro next ⟨⟩
          exact begins

/-! ## What derives is read -/

/-- A solid token behind others, with the trivia between them. -/
theorem exists_split_of_solid
    {tokens rest : List Token}
    {next : Token}
    (run : List Token)
    (kept : solid tokens = run ++ next :: rest) :
    ∃ front back, tokens = front ++ next :: back ∧ solid front = run ∧ solid back = rest := by
  obtain ⟨front, others, rfl, rfl, later⟩ := List.filter_eq_append_iff.mp kept
  obtain ⟨lead, back, rfl, trivia, -, rfl⟩ := List.filter_eq_cons_iff.mp later
  have nothing : solid lead = [] := List.filter_eq_nil_iff.mpr trivia
  refine ⟨front ++ lead, back, by simp, ?_, rfl⟩
  rw [solid_append, nothing, List.append_nil]
  rfl

/-- The end of a block or of a text, with the trivia before it. -/
theorem exists_stop_of_solid
    {nested : Bool}
    {tokens rest : List Token}
    (run : List Token)
    (kept : solid tokens = run ++ rest)
    (stops : Stops nested rest) :
    ∃ front others, tokens = front ++ others ∧ solid front = run ∧ solid others = rest ∧
      Stops nested others := by
  cases stops with
  | source => exact ⟨tokens, [], by simp, by simpa using kept, rfl, .source⟩
  | @brace close isClose others =>
      obtain ⟨front, back, rfl, kept, later⟩ := exists_split_of_solid run kept
      refine ⟨front, close :: back, rfl, kept, ?_, .brace isClose back⟩
      rw [solid_cons_of_kind isClose, later]

/-- Where nothing is solid, all is trivia. -/
theorem reads_of_solid_eq_nil
    {lead : List Token}
    (plain : ∀ token ∈ lead, token.kind.isPlain = true)
    (nothing : solid lead = [])
    (nested : Bool)
    (tokens : List Token) :
    Reads nested (lead ++ tokens) (commentsOf lead) tokens :=
  reads_trivia plain (fun token present => by
    simpa using List.filter_eq_nil_iff.mp nothing token present) nested tokens

/-- Tokens that are read up to the end of a block or of a text, where the solid
tokens left are the given ones. -/
def ReadsTo (nested : Bool) (tokens rest : List Token) : Prop :=
  ∃ nodes tail last others,
    Reads nested tokens nodes (tail ++ others) ∧ Ends nested tail last ∧
      Stops nested others ∧ solid others = rest

theorem ReadsTo.behind
    {nested : Bool}
    {tokens middle rest : List Token}
    {nodes : List Node}
    (reads : Reads nested tokens nodes middle)
    (readsTo : ReadsTo nested middle rest) :
    ReadsTo nested tokens rest := by
  obtain ⟨more, tail, last, others, later, ends⟩ := readsTo
  exact ⟨nodes ++ more, tail, last, others, reads.trans later, ends⟩

/-- A block is read if its contents and what follows are. -/
theorem ReadsTo.block
    {nested : Bool}
    {head body tokens rest : List Token}
    {brace close : Token}
    (isHead : head = [] ∨ IsPrelude head)
    (isOpen : brace.kind = .openBrace)
    (within : ReadsTo true body (close :: tokens))
    (later : ∀ others, others <:+ body → solid others = tokens →
      ReadsTo nested others rest) :
    ReadsTo nested (head ++ brace :: body) rest := by
  obtain ⟨inner, tail, last, others, reads, ends, stops, kept⟩ := within
  cases stops with
  | @brace close' isClose more =>
      rw [solid_cons_of_kind isClose] at kept
      obtain ⟨rfl, keptMore⟩ := List.cons.inj kept
      obtain ⟨front, split, -⟩ := reads.exists_front
      exact (later more ⟨front ++ (tail ++ [close']), by simp [split]⟩ keptMore).behind
        (.block isHead isOpen reads ends isClose (.done nested more))

/-- The first token of a prelude begins it. -/
theorem IsPrelude.begins
    {head tokens others : List Token}
    {first : Token}
    (isPrelude : IsPrelude head)
    (split : head ++ others = first :: tokens) :
    first.kind.beginsPrelude = true := by
  cases head with
  | nil => exact isPrelude.elim
  | cons start run =>
      obtain ⟨rfl, -⟩ := List.cons.inj split
      exact isPrelude.1

/-- Behind a semicolon everything is read if it is with the semicolon. -/
theorem ReadsTo.of_semicolon
    {nested : Bool}
    {semicolon : Token}
    {tokens rest : List Token}
    (isSemicolon : semicolon.kind = .semicolon)
    (readsTo : ReadsTo nested (semicolon :: tokens) rest) :
    ReadsTo nested tokens rest := by
  obtain ⟨nodes, tail, last, others, reads, ends, stops, kept⟩ := readsTo
  have noPrelude : semicolon.kind.beginsPrelude ≠ true := by
    rw [isSemicolon]
    exact nofun
  generalize split : semicolon :: tokens = whole at reads
  generalize left : tail ++ others = more at reads
  cases reads with
  | done =>
      cases ends with
      | closed =>
          cases stops with
          | source => exact absurd (left.trans split.symm) nofun
          | brace isClose others =>
              obtain ⟨rfl, -⟩ := List.cons.inj (left.trans split.symm)
              rw [isSemicolon] at isClose
              exact absurd isClose nofun
      | unfinished isPrelude isStatement =>
          exact absurd (isPrelude.begins (left.trans split.symm)) noPrelude
  | skip separates later =>
      obtain ⟨rfl, rfl⟩ := List.cons.inj split
      exact ⟨_, tail, last, others, left ▸ later, ends, stops, kept⟩
  | comment isComment later =>
      obtain ⟨rfl, -⟩ := List.cons.inj split
      rw [isSemicolon] at isComment
      exact absurd isComment nofun
  | statement isPrelude => exact absurd (isPrelude.begins split.symm) noPrelude
  | block isHead isOpen =>
      rcases isHead with rfl | isPrelude
      · obtain ⟨rfl, -⟩ := List.cons.inj split
        rw [isSemicolon] at isOpen
        exact absurd isOpen nofun
      · exact absurd (isPrelude.begins split.symm) noPrelude

/-- Before a closing brace, and at the end of a text, nothing derives. -/
theorem Derives.eq_of_closeBrace
    {source : Text}
    {nested : Bool}
    {tokens rest : List Token}
    (derives : Derives source nested tokens rest)
    (isLast : ∀ next ∈ tokens.head?, next.kind = .closeBrace) :
    rest = tokens := by
  cases derives with
  | nothing => rfl
  | semicolon isSemicolon =>
      rw [isLast _ rfl] at isSemicolon
      exact absurd isSemicolon nofun
  | atStatement isKeyword | atBlock isKeyword | atLast isKeyword =>
      rw [isLast _ rfl] at isKeyword
      exact absurd isKeyword nofun
  | @rule _ brace _ run _ _ _ begins _ isOpen =>
      cases run with
      | nil =>
          rw [isLast _ rfl] at isOpen
          exact absurd isOpen nofun
      | cons first others =>
          have begun := begins first rfl
          rw [isLast first rfl] at begun
          exact absurd begun nofun
  | declaration begins =>
      rw [isLast _ rfl] at begins
      exact absurd begins nofun

/-- With the trivia between its tokens, a prelude of the grammar is one. -/
theorem isPrelude_of_fills
    {first : Token}
    {run rest : List Token}
    (isPlain : first.kind.isPlain = true)
    (isSolid : first.kind.isTrivia = false)
    (form : first.kind = .atKeyword ∧ Fills (solid run) rest ∨
      first.kind.beginsItem = true ∧ Fills (first :: solid run) rest) :
    IsPrelude (first :: run) ∧
      ∀ next ∈ rest.head?,
        next.kind.continuesPrelude (nesting 0 (first :: run)) = false := by
  rcases form with ⟨isKeyword, runs, stops⟩ | ⟨begins, runs, stops⟩
  · have level : nesting 0 (first :: run) = nesting 0 run := by
      change nesting (first.kind.depthAfter 0) run = nesting 0 run
      rw [isKeyword]
      rfl
    rw [level, ← nesting_solid]
    refine ⟨⟨by rw [isKeyword]; rfl, by rw [isKeyword]; rfl, ?_⟩, stops⟩
    rw [isKeyword]
    exact (runs_solid_iff 0 run).mp runs
  · have begun : first.kind.beginsPrelude = true := by
      cases kind : first.kind <;>
        simp_all [TokenKind.beginsPrelude, TokenKind.beginsItem, TokenKind.isTrivia,
          TokenKind.isPlain]
    rw [← solid_cons isSolid] at runs stops
    rw [← nesting_solid]
    exact ⟨⟨begun, (runs_solid_iff 0 _).mp runs⟩, stops⟩

section Derived

variable {source : Text}

/-- Whether tokens are the last of a text without line comments and without tokens
that do not end. -/
structure Remains (source : Text) (tokens : List Token) : Prop where
  within : tokens <:+ Lexer.tokens .css source
  plain : ∀ token ∈ tokens, token.kind.isPlain = true

theorem Remains.suffix
    {tokens others : List Token}
    (remains : Remains source tokens)
    (suffix : others <:+ tokens) :
    Remains source others :=
  ⟨suffix.trans remains.within,
    fun token present => remains.plain token (suffix.subset present)⟩

/-- Before the first solid token there are comments at most. -/
theorem ReadsTo.of_first
    {nested : Bool}
    {first : Token}
    {raw tokens rest : List Token}
    (remains : Remains source raw)
    (kept : solid raw = first :: tokens)
    (readsTo : ∀ back, Remains source (first :: back) → first.kind.isTrivia = false →
      solid back = tokens → ReadsTo nested (first :: back) rest) :
    ReadsTo nested raw rest := by
  have isSolid : first.kind.isTrivia = false := by
    have present : first ∈ solid raw := kept ▸ List.mem_cons_self
    simpa using (List.mem_filter.mp present).2
  obtain ⟨lead, back, rfl, trivia, keptBack⟩ := exists_split_of_solid [] kept
  have reads := reads_of_solid_eq_nil
    (fun token present => remains.plain token (List.mem_append_left _ present)) trivia nested
    (first :: back)
  exact (readsTo back (remains.suffix (List.suffix_append lead _)) isSolid keptBack).behind
    reads

/-- A statement with its semicolon is read. -/
theorem ReadsTo.statement
    {nested : Bool}
    {first semicolon : Token}
    {run back rest : List Token}
    (remains : Remains source (first :: (run ++ semicolon :: back)))
    (isPrelude : IsPrelude (first :: run))
    (stops : semicolon.kind.continuesPrelude (nesting 0 (first :: run)) = false)
    (isSemicolon : semicolon.kind = .semicolon)
    (form : first.kind = .atKeyword ∨
      (nested = true ∧
        ':' ∈ (first.span.through ((solid run).getLastD first).span).slice source))
    (later : ReadsTo nested back rest) :
    ReadsTo nested (first :: (run ++ semicolon :: back)) rest := by
  obtain ⟨before, split⟩ := remains.within
  obtain ⟨node, isStatement⟩ :=
    (Prelude.isStatement_iff split.symm isPrelude.1 nested (some semicolon.span)).mpr form
  have level : nesting 0 (first :: run) = 0 := by
    simpa [isSemicolon, TokenKind.continuesPrelude] using stops
  exact later.behind (.statement isPrelude level isSemicolon isStatement (.done nested back))

/-- A statement at the end of a block or of a text is read. -/
theorem ReadsTo.last
    {nested : Bool}
    {first : Token}
    {run others : List Token}
    (remains : Remains source (first :: (run ++ others)))
    (isPrelude : IsPrelude (first :: run))
    (form : first.kind = .atKeyword ∨
      (nested = true ∧
        ':' ∈ (first.span.through ((solid run).getLastD first).span).slice source))
    (stops : Stops nested others) :
    ReadsTo nested (first :: (run ++ others)) (solid others) := by
  obtain ⟨before, split⟩ := remains.within
  obtain ⟨node, isStatement⟩ :=
    (Prelude.isStatement_iff split.symm isPrelude.1 nested none).mpr form
  exact ⟨[], first :: run, [node], others, .done nested _, .unfinished isPrelude isStatement,
    stops, rfl⟩

/-- The tokens of a text that the grammar derives, without their trivia, are read. -/
theorem Derives.readsTo
    {nested : Bool}
    {tokens rest raw : List Token}
    (derives : Derives source nested tokens rest)
    (stops : Stops nested rest)
    (remains : Remains source raw)
    (kept : solid raw = tokens) :
    ReadsTo nested raw rest := by
  -- On the derivation, for all tokens that leave these when their trivia is dropped.
  induction derives generalizing raw with
  | nothing nested tokens =>
      obtain ⟨lead, others, rfl, trivia, keptOthers, stops⟩ :=
        exists_stop_of_solid [] kept stops
      have reads := reads_of_solid_eq_nil
        (fun token present => remains.plain token (List.mem_append_left _ present)) trivia
        nested others
      exact ⟨_, [], [], others, reads, .closed, stops, keptOthers⟩
  | semicolon isSemicolon _ inductionHypothesis =>
      refine .of_first remains kept fun back remains _ kept => ?_
      exact (inductionHypothesis stops (remains.suffix (List.suffix_cons _ _)) kept).behind
        (.skip (.inr isSemicolon) (.done _ back))
  | @atStatement _ keyword semicolon _ _ _ isKeyword fills isSemicolon _ inductionHypothesis =>
      refine .of_first remains kept fun back remains isSolid keptBack => ?_
      obtain ⟨run, others, rfl, rfl, keptOthers⟩ := exists_split_of_solid _ keptBack
      obtain ⟨isPrelude, ends⟩ := isPrelude_of_fills (remains.plain _ List.mem_cons_self)
        isSolid (.inl ⟨isKeyword, fills⟩)
      refine .statement remains isPrelude (ends _ rfl) isSemicolon (.inl isKeyword) ?_
      exact inductionHypothesis stops
        (remains.suffix ⟨keyword :: (run ++ [semicolon]), by simp⟩) keptOthers
  | @atBlock _ keyword brace _ _ _ _ _ isKeyword fills isOpen _ isClose _ withinHypothesis
      laterHypothesis =>
      refine .of_first remains kept fun back remains isSolid keptBack => ?_
      obtain ⟨run, others, rfl, rfl, keptOthers⟩ := exists_split_of_solid _ keptBack
      obtain ⟨isPrelude, -⟩ := isPrelude_of_fills (remains.plain _ List.mem_cons_self)
        isSolid (.inl ⟨isKeyword, fills⟩)
      have inside : Remains source others :=
        remains.suffix ⟨keyword :: (run ++ [brace]), by simp⟩
      exact .block (.inr isPrelude) isOpen
        (withinHypothesis (.brace isClose _) inside keptOthers)
        fun more suffix => laterHypothesis stops (inside.suffix suffix)
  | @atLast nested keyword _ tokens rest isKeyword fills isLast later _ =>
      obtain rfl := later.eq_of_closeBrace isLast
      refine .of_first remains kept fun back remains isSolid keptBack => ?_
      obtain ⟨run, others, rfl, rfl, rfl, stopsOthers⟩ := exists_stop_of_solid _ keptBack stops
      obtain ⟨isPrelude, -⟩ := isPrelude_of_fills (remains.plain _ List.mem_cons_self)
        isSolid (.inl ⟨isKeyword, fills⟩)
      exact .last remains isPrelude (.inl isKeyword) stopsOthers
  | @rule nested brace _ run _ _ _ begins fills isOpen _ isClose _ withinHypothesis
      laterHypothesis =>
      have block (head : List Token) (body : List Token) (isHead : head = [] ∨ IsPrelude head)
          (remains : Remains source (head ++ brace :: body)) (kept : solid body = _) :
          ReadsTo nested (head ++ brace :: body) _ :=
        have inside : Remains source body := remains.suffix ⟨head ++ [brace], by simp⟩
        .block isHead isOpen (withinHypothesis (.brace isClose _) inside kept)
          fun others suffix => laterHypothesis stops (inside.suffix suffix)
      cases run with
      | nil =>
          refine .of_first remains kept fun back remains _ kept => ?_
          exact block [] back (.inl rfl) remains kept
      | cons first run =>
          refine .of_first remains kept fun back remains isSolid keptBack => ?_
          obtain ⟨run, body, rfl, rfl, keptBody⟩ := exists_split_of_solid _ keptBack
          obtain ⟨isPrelude, -⟩ := isPrelude_of_fills (remains.plain _ List.mem_cons_self)
            isSolid (.inr ⟨begins first rfl, fills⟩)
          exact block (first :: run) body (.inr isPrelude) remains keptBody
  | @declaration first stop _ tokens rest begins fills isStop hasColon later
      inductionHypothesis =>
      refine .of_first remains kept fun back remains isSolid keptBack => ?_
      obtain ⟨run, others, rfl, rfl, keptOthers⟩ := exists_split_of_solid _ keptBack
      obtain ⟨isPrelude, ends⟩ := isPrelude_of_fills (remains.plain _ List.mem_cons_self)
        isSolid (.inr ⟨begins, fills⟩)
      have keptStop : solid (stop :: others) = stop :: tokens := by
        rw [solid_cons (by rcases isStop with kind | kind <;> rw [kind] <;> rfl), keptOthers]
      -- A semicolon belongs to the declaration, a brace to the block around it.
      rcases isStop with isSemicolon | isClose
      · refine .statement remains isPrelude (ends _ rfl) isSemicolon (.inr ⟨rfl, hasColon⟩) ?_
        have behind := remains.suffix ⟨first :: run, rfl⟩
        exact (inductionHypothesis stops behind keptStop).of_semicolon isSemicolon
      · obtain rfl := later.eq_of_closeBrace fun next present => by
          obtain rfl := Option.some.inj present
          exact isClose
        rw [← keptStop]
        exact .last remains isPrelude (.inr ⟨rfl, hasColon⟩) (.brace isClose others)

end Derived

/-- A text is parsed without faults exactly if all its comments and strings end and
the grammar derives its tokens without the trivia. -/
theorem faults_parse_eq_nil_iff_derives (source : Text) :
    (parse source).faults = [] ↔
      (∀ token ∈ Lexer.allTokens .css source, token.kind ≠ .invalid) ∧
        Derives source false (solid (Lexer.tokens .css source)) [] := by
  constructor
  · intro faultless
    have plain := isPlain_of_faults_parse faultless
    obtain ⟨front, tail, last, reads, ends, -⟩ := readsAll_parse faultless
    obtain ⟨taken, split, -⟩ := reads.exists_front
    have split' : Lexer.tokens .css source = taken ++ (tail ++ []) := by
      rw [split, List.append_nil]
    have derives := derives_of_ends split' ends .source
    refine ⟨fun token present => ?_, ?_⟩
    · rcases List.mem_append.mp present with present | present
      · intro isInvalid
        have isPlain := plain token present
        rw [isInvalid] at isPlain
        exact absurd isPlain nofun
      · obtain rfl := List.mem_singleton.mp present
        exact nofun
    · have left : solid tail = solid tail ++ solid [] := (List.append_nil _).symm
      exact (reads.derives (List.suffix_refl _)).trans (left ▸ derives)
  · rintro ⟨valid, derives⟩
    have plain : ∀ token ∈ Lexer.tokens .css source, token.kind.isPlain = true :=
      fun token present => isPlain_of_mem_tokens present
        (valid token (List.mem_append_left _ present))
    obtain ⟨nodes, tail, last, others, reads, ends, stops, -⟩ :=
      derives.readsTo .source ⟨List.suffix_refl _, plain⟩ rfl
    cases stops with
    | source =>
        have readsAll : ReadsAll (Lexer.tokens .css source) (nodes ++ last) :=
          ⟨nodes, tail, last, List.append_nil tail ▸ reads, ends, rfl⟩
        rw [readsAll.parse_eq]

end Parser
end StyleTypings
