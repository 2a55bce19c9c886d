import StyleTypings.Proofs.Stylesheet.Lexing
import StyleTypings.Proofs.Stylesheet.Spans
import StyleTypings.Proofs.Stylesheet.Stepping

/-!
# Where parsed nodes lie

While tokens are taken, the nodes found so far fit between the beginning of
their block and the beginning of the prelude being read, or the end of the last
token outside every prelude. Each step keeps this, so the forest of a parsed text
fits into the text, whatever faults there are.
-/

namespace StyleTypings

/-- A token of a text lies between two offsets. -/
structure Token.Lies (text : Text) (low high : Nat) (token : Token) : Prop where
  low_le : low ≤ token.start
  start_lt_stop : token.start < token.stop
  stop_le : token.stop ≤ high
  solid : token.kind ≠ .whitespace → text.SolidAt token.start
  ends : text.Boundary token.stop

theorem Token.Lies.mono
    {text : Text}
    {low low' high high' : Nat}
    {token : Token}
    (lies : token.Lies text low high)
    (lower : low' ≤ low)
    (higher : high ≤ high') :
    token.Lies text low' high' :=
  { lies with
    low_le := Nat.le_trans lower lies.low_le
    stop_le := Nat.le_trans lies.stop_le higher }

/-- The bytes of a solid token fit. -/
theorem Token.Lies.span_fits
    {text : Text}
    {low high : Nat}
    {token : Token}
    (lies : token.Lies text low high)
    (solid : token.kind ≠ .whitespace) :
    token.span.Fits text low high :=
  ⟨lies.low_le, lies.start_lt_stop, lies.stop_le, lies.solid solid, lies.ends⟩

namespace Parser

/-- What begins a prelude: its at-keyword, or its first token, which is no
trivia. -/
def Prelude.BeginsWith (pre : Prelude) (first : Token) : Prop :=
  match pre.keyword with
  | some keyword => keyword = first
  | none => pre.reversed.getLast? = some first

/-- A prelude begins at an offset of a text and ends before another. -/
structure Prelude.Fits (text : Text) (start finish : Nat) (pre : Prelude) : Prop where
  begins : ∃ first, pre.BeginsWith first ∧ first.Lies text start finish ∧
    first.start = start ∧ first.kind.isTrivia = false
  within : ∀ token ∈ pre.reversed, token.Lies text start finish
  ordered : pre.reversed.Pairwise fun later earlier => earlier.stop ≤ later.start

/-- A token that is no trivia is no whitespace. -/
theorem ne_whitespace_of_isTrivia
    {kind : TokenKind}
    (solid : kind.isTrivia = false) :
    kind ≠ .whitespace := by
  rintro rfl
  exact absurd solid nofun

namespace Prelude

theorem mem_of_mem_content
    {pre : Prelude}
    {token : Token}
    (present : token ∈ pre.content) :
    token ∈ pre.reversed := by
  have inReverse := (List.dropWhile_sublist _).subset present
  exact (List.dropWhile_sublist _).subset (List.mem_reverse.mp inReverse)

/-- The content of a prelude without an at-keyword begins where the prelude
does. -/
theorem content_eq_cons
    {pre : Prelude}
    {first : Token}
    (last : pre.reversed.getLast? = some first)
    (solid : first.kind.isTrivia = false) :
    ∃ rest, pre.content = first :: rest := by
  obtain ⟨later, split⟩ := List.getLast?_eq_some_iff.mp last
  have kept : ∃ others,
      (later ++ [first]).dropWhile (fun token => token.kind.isTrivia) = others ++ [first] := by
    rw [List.dropWhile_append]
    split
    · exact ⟨[], List.dropWhile_cons_of_neg (by simp [solid])⟩
    · exact ⟨_, rfl⟩
  obtain ⟨others, dropped⟩ := kept
  unfold content
  simp only [split, dropped, List.reverse_append]
  exact ⟨_, List.dropWhile_cons_of_neg (by simp [solid])⟩

/-- The content of a prelude begins with a token that is no trivia. -/
theorem isTrivia_of_content_eq_cons
    {pre : Prelude}
    {first : Token}
    {rest : List Token}
    (content : pre.content = first :: rest) :
    first.kind.isTrivia = false := by
  have head := List.head?_dropWhile_not (fun token : Token => token.kind.isTrivia)
    (pre.reversed.dropWhile fun token => token.kind.isTrivia).reverse
  unfold Prelude.content at content
  rw [content] at head
  simpa using head

theorem span?_of_content
    {pre : Prelude}
    {first : Token}
    {rest : List Token}
    (content : pre.content = first :: rest) :
    pre.span? = some (first.span.through (rest.getLastD first).span) := by
  unfold Prelude.span?
  rw [content]

/-- The bytes of a prelude run from the first token of its content to the last. -/
theorem exists_content_of_span?
    {pre : Prelude}
    {span : Span}
    (covered : pre.span? = some span) :
    ∃ first rest, pre.content = first :: rest ∧
      span = first.span.through (rest.getLastD first).span := by
  cases content : pre.content with
  | nil =>
      unfold Prelude.span? at covered
      rw [content] at covered
      exact absurd covered.symm (Option.some_ne_none span)
  | cons first rest =>
      exact ⟨first, rest, rfl, Option.some.inj (covered.symm.trans (span?_of_content content))⟩

/-- The tokens of the content stand in the order of the text. -/
theorem Fits.ordered_content
    {text : Text}
    {start finish : Nat}
    {pre : Prelude}
    (fits : pre.Fits text start finish) :
    pre.content.Pairwise fun earlier later => earlier.stop ≤ later.start :=
  (List.pairwise_reverse.mpr (fits.ordered.sublist (List.dropWhile_sublist _))).sublist
    (List.dropWhile_sublist _)

/-- The bytes of a prelude's content fit into it. -/
theorem Fits.span?
    {text : Text}
    {start finish : Nat}
    {pre : Prelude}
    {span : Span}
    (fits : pre.Fits text start finish)
    (covered : pre.span? = some span) :
    span.Fits text start finish := by
  have ordered := fits.ordered_content
  obtain ⟨first, rest, content, rfl⟩ := exists_content_of_span? covered
  rw [content] at ordered
  have inside : ∀ token ∈ first :: rest, token.Lies text start finish :=
    fun token present => fits.within token (mem_of_mem_content (content ▸ present))
  have firstLies := inside first List.mem_cons_self
  have solid := firstLies.solid
    (ne_whitespace_of_isTrivia (isTrivia_of_content_eq_cons content))
  have lower := firstLies.low_le
  have wide := firstLies.start_lt_stop
  have last : (rest.getLastD first).Lies text start finish ∧
      first.stop ≤ (rest.getLastD first).stop := by
    rw [List.getLastD_eq_getLast?]
    cases found : rest.getLast? with
    | none => exact ⟨firstLies, Nat.le_refl _⟩
    | some token =>
        have present := List.mem_of_getLast? found
        have lies := inside token (List.mem_cons_of_mem _ present)
        have behind := (List.pairwise_cons.mp ordered).1 token present
        exact ⟨lies, Nat.le_trans behind (Nat.le_of_lt lies.start_lt_stop)⟩
  obtain ⟨lastLies, behind⟩ := last
  have ends : max (rest.getLastD first).stop first.start =
      (rest.getLastD first).stop := by omega
  refine ⟨lower, ?_, ?_, solid, ?_⟩
  all_goals simp only [Span.start_through, Span.stop_through, Token.span, ends]
  · omega
  · exact lastLies.stop_le
  · exact lastLies.ends

/-- The bytes of a prelude without an at-keyword begin where it does. -/
theorem Fits.exists_span
    {text : Text}
    {start finish : Nat}
    {pre : Prelude}
    (fits : pre.Fits text start finish)
    (noKeyword : pre.keyword = none) :
    ∃ span, pre.span? = some span ∧ span.start = start := by
  obtain ⟨first, begins, -, starts, solid⟩ := fits.begins
  unfold BeginsWith at begins
  rw [noKeyword] at begins
  obtain ⟨rest, content⟩ := content_eq_cons begins solid
  exact ⟨_, span?_of_content content, starts⟩

/-- A prelude whose only token is the one that begins it. -/
theorem fits_of_begins
    {text : Text}
    {finish : Nat}
    {pre : Prelude}
    {token : Token}
    (lies : token.Lies text finish token.stop)
    (solid : token.kind.isTrivia = false)
    (begins : pre.BeginsWith token)
    (only : pre.reversed = [] ∨ pre.reversed = [token]) :
    pre.Fits text token.start token.stop := by
  have here : token.Lies text token.start token.stop :=
    { lies with low_le := Nat.le_refl _ }
  refine ⟨⟨token, begins, here, rfl, solid⟩, ?_, ?_⟩
  all_goals rcases only with only | only <;> rw [only]
  · exact nofun
  · exact List.forall_mem_singleton.mpr here
  · exact .nil
  · exact List.pairwise_singleton _ _

/-- A prelude with one more token fits up to the end of that token. -/
theorem Fits.push
    {text : Text}
    {start finish : Nat}
    {pre : Prelude}
    {token : Token}
    (fits : pre.Fits text start finish)
    (next : token.Lies text finish token.stop) :
    (pre.push token).Fits text start token.stop := by
  obtain ⟨first, begins, lies, starts, solid⟩ := fits.begins
  have upper : finish ≤ token.stop :=
    Nat.le_trans next.low_le (Nat.le_of_lt next.start_lt_stop)
  have lower : start ≤ finish :=
    Nat.le_trans lies.low_le (Nat.le_trans (Nat.le_of_lt lies.start_lt_stop) lies.stop_le)
  refine ⟨⟨first, ?_, lies.mono (Nat.le_refl _) upper, starts, solid⟩, ?_, ?_⟩
  · unfold BeginsWith Prelude.push at *
    cases keyword : pre.keyword with
    | some word => simpa [keyword] using begins
    | none =>
        simp only [keyword] at begins ⊢
        rw [List.getLast?_cons, begins]
        rfl
  · intro other present
    rcases List.mem_cons.mp present with rfl | earlier
    · exact next.mono lower (Nat.le_refl _)
    · exact (fits.within other earlier).mono (Nat.le_refl _) upper
  · refine List.pairwise_cons.mpr ⟨fun other earlier => ?_, fits.ordered⟩
    exact Nat.le_trans (fits.within other earlier).stop_le next.low_le

end Prelude

/-! ## States -/

/-- Where the nodes of the innermost open block may begin. -/
def contentLow : List OpenBlock → Nat
  | [] => 0
  | block :: _ => block.header.span.start + 1

/-- The open blocks lie one in another, with the nodes before each. -/
def BlocksFit (text : Text) : List OpenBlock → Prop
  | [] => True
  | block :: outer =>
      BlocksFit text outer ∧
        Node.AllFit text (contentLow outer) block.header.span.start
          block.before.reverse ∧
        text.SolidAt block.header.span.start

/-- What has been found in a text up to an offset lies in it in order. -/
structure State.Fits (text : Text) (finish : Nat) (state : State) : Prop where
  blocks : BlocksFit text state.blocks
  rest :
    match state.pre with
    | none => Node.AllFit text (contentLow state.blocks) finish state.nodes.reverse
    | some pre => ∃ start,
        Node.AllFit text (contentLow state.blocks) start state.nodes.reverse ∧
          pre.Fits text start finish

/-- A node behind the nodes found so far. -/
theorem fits_addNode
    {text : Text}
    {middle finish : Nat}
    {state : State}
    {node : Node}
    (blocks : BlocksFit text state.blocks)
    (outside : state.pre = none)
    (nodes : Node.AllFit text (contentLow state.blocks) middle state.nodes.reverse)
    (fits : node.Fits text middle finish) :
    (state.addNode node).Fits text finish := by
  refine ⟨blocks, ?_⟩
  have pre : (state.addNode node).pre = none := outside
  rw [pre]
  simp only [State.addNode, List.reverse_cons]
  exact nodes.concat fits

/-- A block whose header begins behind the nodes found so far. -/
theorem fits_openBlock
    {text : Text}
    {finish : Nat}
    {state : State}
    {header : Header}
    (blocks : BlocksFit text state.blocks)
    (nodes : Node.AllFit text (contentLow state.blocks) header.span.start
      state.nodes.reverse)
    (solid : text.SolidAt header.span.start)
    (begun : header.span.start < finish) :
    (state.openBlock header).Fits text finish :=
  ⟨⟨blocks, nodes, solid⟩, begun⟩

@[simp] theorem span_toNode (header : Header) (nodes : List Node) (close : Span) :
    (header.toNode nodes close).span = header.span.through close := by
  cases header <;> rfl

@[simp] theorem children_toNode (header : Header) (nodes : List Node) (close : Span) :
    (header.toNode nodes close).children = nodes := by
  cases header <;> rfl

/-- The node of a header that is closed behind the nodes of its block. -/
theorem fits_toNode
    {text : Text}
    {header : Header}
    {nodes : List Node}
    {close : Span}
    (solid : text.SolidAt header.span.start)
    (inner : Node.AllFit text (header.span.start + 1) close.stop nodes)
    (ends : text.Boundary close.stop) :
    (header.toNode nodes close).Fits text header.span.start close.stop := by
  have behind := inner.le
  have stops : (header.span.through close).stop = close.stop := by
    rw [Span.stop_through]
    omega
  rw [Node.fits_iff, span_toNode, children_toNode, Span.start_through, stops]
  refine ⟨⟨Nat.le_refl _, ?_, ?_, solid, ?_⟩, inner⟩
  · rw [stops]
    exact behind
  · exact Nat.le_of_eq stops
  · rw [stops]
    exact ends

/-- Closing the innermost block puts its node behind those before it. -/
theorem fits_closeBlock
    {text : Text}
    {state : State}
    {close : Span}
    (fits : state.Fits text close.stop)
    (outside : state.pre = none)
    (ends : text.Boundary close.stop) :
    (state.closeBlock close).Fits text close.stop := by
  rcases state with ⟨blocks, nodes, pre, faults⟩
  obtain rfl := outside
  cases blocks with
  | nil => exact fits
  | cons block outer =>
      obtain ⟨⟨outerFit, before, solid⟩, inner⟩ := fits
      refine ⟨outerFit, ?_⟩
      simp only [State.closeBlock, List.reverse_cons]
      exact before.concat (fits_toNode solid inner ends)

/-- The params of an at-rule end behind its at-keyword. -/
theorem paramsSpan_stop
    {text : Text}
    {start finish : Nat}
    {pre : Prelude}
    {keyword : Token}
    (fits : pre.Fits text start finish)
    (lies : keyword.Lies text start finish)
    (starts : keyword.start = start) :
    keyword.start < (paramsSpan keyword pre).stop ∧
      (paramsSpan keyword pre).stop ≤ finish ∧
      text.Boundary (paramsSpan keyword pre).stop := by
  unfold paramsSpan
  cases covered : pre.span? with
  | none => exact ⟨lies.start_lt_stop, lies.stop_le, lies.ends⟩
  | some span =>
      have inside := fits.span? covered
      have lower := inside.low_le
      have wide := inside.start_lt_stop
      exact ⟨by rw [Option.getD_some]; omega, inside.stop_le, inside.ends⟩

/-- Ending a prelude leaves at most one node from where it began. -/
theorem fits_endStatement
    {text : Text}
    {start finish finish' : Nat}
    {state : State}
    {pre : Prelude}
    {semicolon : Option Span}
    (blocks : BlocksFit text state.blocks)
    (nodes : Node.AllFit text (contentLow state.blocks) start state.nodes.reverse)
    (fits : pre.Fits text start finish)
    (later : finish ≤ finish')
    (ends : ∀ span, semicolon = some span →
      finish ≤ span.stop ∧ span.stop ≤ finish' ∧ text.Boundary span.stop) :
    (state.endStatement pre semicolon).Fits text finish' := by
  obtain ⟨first, begins, lies, starts, solid⟩ := fits.begins
  have stopAfter := lies.start_lt_stop
  have stopBefore := lies.stop_le
  have closed : ({ state with pre := none } : State).Fits text finish' :=
    ⟨blocks, nodes.mono (Nat.le_refl _) (by omega)⟩
  unfold State.endStatement
  cases keyword : pre.keyword with
  | some word =>
      have isFirst : word = first := by
        unfold Prelude.BeginsWith at begins
        rwa [keyword] at begins
      subst isFirst
      have params := paramsSpan_stop fits lies starts
      have last : word.start < (semicolon.getD (paramsSpan word pre)).stop ∧
          (semicolon.getD (paramsSpan word pre)).stop ≤ finish' ∧
          text.Boundary (semicolon.getD (paramsSpan word pre)).stop := by
        cases semicolon with
        | none => exact ⟨params.1, Nat.le_trans params.2.1 later, params.2.2⟩
        | some span =>
            obtain ⟨behind, before, boundary⟩ := ends span rfl
            exact ⟨by rw [Option.getD_some]; omega, before, boundary⟩
      have stops : (word.span.through (semicolon.getD (paramsSpan word pre))).stop =
          (semicolon.getD (paramsSpan word pre)).stop := by
        rw [Span.stop_through]
        exact Nat.max_eq_left (Nat.le_of_lt last.1)
      refine fits_addNode blocks rfl nodes ⟨Nat.le_of_eq starts.symm, ?_, ?_, ?_, ?_⟩
      · exact stops ▸ last.1
      · exact stops ▸ last.2.1
      · exact lies.solid (ne_whitespace_of_isTrivia solid)
      · exact stops ▸ last.2.2
  | none =>
      simp only
      split
      · exact closed
      · next span covered =>
          have inside := fits.span? covered
          split
          · exact fits_addNode blocks rfl nodes (inside.mono (Nat.le_refl _) later)
          · exact ⟨closed.blocks, closed.rest⟩

theorem State.Fits.mono
    {text : Text}
    {finish finish' : Nat}
    {state : State}
    (fits : state.Fits text finish)
    (outside : state.pre = none)
    (later : finish ≤ finish') :
    state.Fits text finish' := by
  obtain ⟨blocks, rest⟩ := fits
  refine ⟨blocks, ?_⟩
  rw [outside] at rest ⊢
  exact rest.mono (Nat.le_refl _) later

theorem State.Fits.nodes
    {text : Text}
    {finish : Nat}
    {state : State}
    (fits : state.Fits text finish)
    (outside : state.pre = none) :
    Node.AllFit text (contentLow state.blocks) finish state.nodes.reverse := by
  have rest := fits.rest
  rwa [outside] at rest

theorem State.Fits.exists_start
    {text : Text}
    {finish : Nat}
    {state : State}
    {pre : Prelude}
    (fits : state.Fits text finish)
    (inside : state.pre = some pre) :
    ∃ start, Node.AllFit text (contentLow state.blocks) start state.nodes.reverse ∧
      pre.Fits text start finish := by
  have rest := fits.rest
  rwa [inside] at rest

/-- What is being read may end at any time. -/
theorem State.Fits.endSource
    {text : Text}
    {finish : Nat}
    {state : State}
    (fits : state.Fits text finish) :
    state.endSource.Fits text finish := by
  cases before : state.pre with
  | none => rwa [State.endSource_of_outside before]
  | some pre =>
      obtain ⟨start, nodes, preFits⟩ := fits.exists_start before
      rw [State.endSource_of_inside before]
      exact fits_endStatement fits.blocks nodes preFits (Nat.le_refl _) nofun

/-- The header of a prelude begins where the prelude does. -/
theorem start_toHeader
    {text : Text}
    {start finish : Nat}
    {pre : Prelude}
    (fits : pre.Fits text start finish)
    (brace : Token) :
    (pre.toHeader brace).span.start = start := by
  obtain ⟨first, begins, -, starts, -⟩ := fits.begins
  unfold Prelude.toHeader
  cases keyword : pre.keyword with
  | some word =>
      unfold Prelude.BeginsWith at begins
      rw [keyword] at begins
      exact begins ▸ starts
  | none =>
      obtain ⟨span, covered, spanStarts⟩ := fits.exists_span keyword
      simp only [covered, Option.getD_some]
      exact spanStarts

/-- A token keeps what has been found in order. -/
theorem fits_step
    {text : Text}
    {finish : Nat}
    {state : State}
    {token : Token}
    (fits : state.Fits text finish)
    (lies : token.Lies text finish token.stop)
    (plain : token.kind ≠ .lineComment) :
    (state.step token).Fits text token.stop := by
  have later : finish ≤ token.stop :=
    Nat.le_trans lies.low_le (Nat.le_of_lt lies.start_lt_stop)
  have nodes (outside : state.pre = none) :
      Node.AllFit text (contentLow state.blocks) token.start state.nodes.reverse :=
    (fits.nodes outside).mono (Nat.le_refl _) lies.low_le
  have ended : state.endSource.Fits text token.stop :=
    fits.endSource.mono (pre_endSource state) later
  generalize taken : state.step token = after
  cases State.steps_iff.mpr taken with
  | skip outside => exact fits.mono outside later
  | comment outside kind =>
      have here : token.Lies text token.start token.stop :=
        { lies with low_le := Nat.le_refl _ }
      exact fits_addNode fits.blocks outside (nodes outside)
        (here.span_fits (by rw [kind]; exact nofun))
  | keyword outside kind =>
      exact ⟨fits.blocks, token.start, nodes outside,
        Prelude.fits_of_begins lies (by rw [kind]; rfl) rfl (.inl rfl)⟩
  | begins outside begins =>
      have solid := TokenKind.isTrivia_of_beginsPrelude (begins.resolve_right plain)
      exact ⟨fits.blocks, token.start, nodes outside,
        Prelude.fits_of_begins lies solid rfl (.inr rfl)⟩
  | continues inside =>
      obtain ⟨start, nodes, preFits⟩ := fits.exists_start inside
      exact ⟨fits.blocks, start, nodes, preFits.push lies⟩
  | bareBlock outside kind =>
      exact fits_openBlock fits.blocks (nodes outside)
        (lies.solid (by rw [kind]; exact nofun)) lies.start_lt_stop
  | block inside =>
      obtain ⟨start, nodes, preFits⟩ := fits.exists_start inside
      obtain ⟨first, -, firstLies, starts, solid⟩ := preFits.begins
      have begun := firstLies.start_lt_stop
      have before := firstLies.stop_le
      have header := start_toHeader preFits token
      refine fits_openBlock fits.blocks ?_ ?_ ?_
      · rw [header]
        exact nodes
      · rw [header, ← starts]
        exact firstLies.solid (ne_whitespace_of_isTrivia solid)
      · omega
  | close =>
      have closed : (state.endSource.closeBlock token.span).Fits text token.span.stop :=
        fits_closeBlock ended (pre_endSource state) lies.ends
      exact closed
  | stray => exact ⟨ended.blocks, ended.rest⟩
  | statement inside =>
      obtain ⟨start, nodes, preFits⟩ := fits.exists_start inside
      apply fits_endStatement fits.blocks nodes preFits later
      rintro span ⟨⟩
      exact ⟨later, Nat.le_refl _, lies.ends⟩
  | invalidOutside outside =>
      exact ⟨fits.blocks, (fits.mono outside later).rest⟩
  | invalidInside inside =>
      obtain ⟨start, nodes, preFits⟩ := fits.exists_start inside
      exact ⟨fits.blocks, start, nodes, preFits.push lies⟩

/-! ## Whole texts -/

/-- What each token keeps, from where it begins to where it ends, holds at the end of the
text if it holds before the rest of it. -/
theorem kept_foldl
    {kept : Nat → State → Prop}
    {text front : Text}
    {lexemes : List Lexeme}
    {state : State}
    (keeps : ∀ finish state token, kept finish state → token.Lies text finish token.stop →
      token.kind ≠ .lineComment → kept token.stop (state.step token))
    (whole : text = front ++ lexemes.flatMap Lexeme.text)
    (covers : ∀ lexeme ∈ lexemes, Lexer.Covers lexeme)
    (plain : ∀ lexeme ∈ lexemes, lexeme.kind ≠ .lineComment)
    (begun : kept front.byteSize state) :
    kept text.byteSize ((Lexeme.place front.byteSize lexemes).foldl State.step state) := by
  induction lexemes generalizing front state with
  | nil =>
      rw [List.flatMap_nil, List.append_nil] at whole
      rw [whole]
      exact begun
  | cons lexeme rest inductionHypothesis =>
      rw [List.flatMap_cons, ← List.append_assoc] at whole
      obtain ⟨c, others, begins, solid⟩ := covers lexeme List.mem_cons_self
      let token : Token := ⟨lexeme.kind, lexeme.text, front.byteSize⟩
      have lies : token.Lies text front.byteSize token.stop := by
        refine ⟨Nat.le_refl _, ?_, Nat.le_refl _, fun notSpace => ?_, ?_⟩
        · have positive := Char.utf8Size_pos c
          have width : lexeme.text.byteSize = c.utf8Size + Text.byteSize others := by
            rw [begins, Text.byteSize_cons]
          change front.byteSize < front.byteSize + lexeme.text.byteSize
          omega
        · refine ⟨front, c, others ++ rest.flatMap Lexeme.text, ?_, rfl, solid notSpace⟩
          rw [whole, begins, List.append_assoc, List.cons_append]
        · refine ⟨front ++ lexeme.text, rest.flatMap Lexeme.text, whole, ?_⟩
          exact Text.byteSize_append _ _
      have next : kept (front ++ lexeme.text).byteSize (state.step token) := by
        rw [Text.byteSize_append]
        exact keeps _ _ _ begun lies (plain lexeme List.mem_cons_self)
      have later := inductionHypothesis whole
        (fun other present => covers other (List.mem_cons_of_mem _ present))
        (fun other present => plain other (List.mem_cons_of_mem _ present)) next
      rw [Text.byteSize_append] at later
      exact later

/-- What each token of a text keeps holds after all of them. -/
theorem kept_tokens
    {kept : Nat → State → Prop}
    (text : Text)
    (keeps : ∀ finish state token, kept finish state → token.Lies text finish token.stop →
      token.kind ≠ .lineComment → kept token.stop (state.step token))
    (begun : kept 0 State.start) :
    kept text.byteSize ((Lexer.tokens .css text).foldl State.step State.start) := by
  have whole : text = [] ++ (Lexer.lexemes .css 0 text).flatMap Lexeme.text :=
    (Lexer.flatMap_text_lexemes .css 0 text).symm
  exact kept_foldl keeps whole Lexer.covers_of_mem_lexemes
    Lexer.kind_ne_lineComment_of_mem_lexemes begun

/-- After all tokens no prelude is left and everything found is in order. -/
theorem fits_run (text : Text) :
    (run text).Fits text text.byteSize ∧ (run text).pre = none := by
  have taken : ((Lexer.tokens .css text).foldl State.step State.start).Fits text
      text.byteSize :=
    kept_tokens text (fun _ _ _ => fits_step) ⟨trivial, Nat.le_refl _⟩
  exact ⟨taken.endSource, pre_endSource _⟩

/-- Closing all blocks at the end puts everything in order. -/
theorem allFit_closeAll
    {text : Text}
    {blocks : List OpenBlock}
    {nodes : List Node}
    (faults : List Fault)
    (blocksFit : BlocksFit text blocks)
    (nodesFit : Node.AllFit text (contentLow blocks) text.byteSize nodes.reverse) :
    Node.AllFit text 0 text.byteSize
      (State.closeAll (.empty text.byteSize) blocks nodes faults).1 := by
  induction blocks generalizing nodes faults with
  | nil => exact nodesFit
  | cons block outer inductionHypothesis =>
      obtain ⟨outerFit, before, solid⟩ := blocksFit
      let finish : Span := .empty text.byteSize
      have closed : (block.header.toNode nodes.reverse finish).Fits text
          block.header.span.start finish.stop :=
        fits_toNode solid nodesFit (Text.Boundary.size text)
      apply inductionHypothesis _ outerFit
      rw [List.reverse_cons]
      exact before.concat closed

/-- The nodes of a parsed text lie in it in order. -/
theorem allFit_parse (text : Text) :
    Node.AllFit text 0 text.byteSize (parse text).sheet.nodes := by
  obtain ⟨fits, outside⟩ := fits_run text
  have rest := fits.rest
  rw [outside] at rest
  exact allFit_closeAll _ fits.blocks rest

/-- All nodes of a parsed text, in document order, begin at ascending offsets. -/
theorem ascend_parse (text : Text) :
    Node.Ascend text 0 text.byteSize
      ((parse text).sheet.descendants.map (·.span.start)) := by
  rw [Stylesheet.descendants_eq]
  exact Node.AllFit.ascend _ (allFit_parse text)

end Parser
end StyleTypings
