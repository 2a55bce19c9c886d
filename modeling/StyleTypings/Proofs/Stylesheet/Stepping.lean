import StyleTypings.Stylesheet.Parser

/-!
# What a token does

Outside of a prelude a token is skipped, is a comment, or begins a prelude. A prelude
takes in tokens up to a brace or to a semicolon outside parentheses. Braces open and
close blocks, and what does not end or closes nothing is a fault. `Steps` has one case
for each of these, so what every token keeps is shown case by case.
-/

namespace StyleTypings

namespace TokenKind

/-- Whether a token of a kind begins a prelude when it stands outside of one. -/
def beginsPrelude : TokenKind → Bool
  | .whitespace | .comment | .lineComment | .semicolon | .openBrace | .closeBrace
  | .invalid | .endOfFile => false
  | _ => true

/-- Whether a prelude takes in a token of a kind, given the nesting of
parentheses before it. -/
def continuesPrelude (depth : Nat) : TokenKind → Bool
  | .openBrace | .closeBrace | .invalid => false
  | .semicolon => depth != 0
  | _ => true

/-- What begins a prelude continues it as well. -/
theorem continuesPrelude_of_beginsPrelude
    {kind : TokenKind}
    (begins : kind.beginsPrelude = true)
    (depth : Nat) :
    kind.continuesPrelude depth = true := by
  cases kind <;> simp_all [beginsPrelude, continuesPrelude]

theorem isTrivia_of_beginsPrelude
    {kind : TokenKind}
    (begins : kind.beginsPrelude = true) :
    kind.isTrivia = false := by
  cases kind <;> simp_all [beginsPrelude, isTrivia]

end TokenKind

namespace Parser

/-- After a statement no prelude is being read. -/
theorem pre_endStatement (state : State) (pre : Prelude) (semicolon : Option Span) :
    (state.endStatement pre semicolon).pre = none := by
  unfold State.endStatement
  cases pre.keyword with
  | some word => rfl
  | none =>
      simp only
      split
      · rfl
      · split <;> rfl

theorem pre_endSource (state : State) : state.endSource.pre = none := by
  unfold State.endSource
  split
  · assumption
  · exact pre_endStatement _ _ _

theorem pre_closeBlock (state : State) (close : Span) :
    (state.closeBlock close).pre = state.pre := by
  unfold State.closeBlock
  split <;> rfl

namespace State

variable {state : State} {pre : Prelude} {token : Token}

theorem endSource_of_outside (outside : state.pre = none) : state.endSource = state := by
  unfold endSource
  rw [outside]

theorem endSource_of_inside (inside : state.pre = some pre) :
    state.endSource = state.endStatement pre none := by
  unfold endSource
  rw [inside]

theorem step_of_outside (outside : state.pre = none) (token : Token) :
    state.step token = state.stepOutside token := by
  unfold step
  rw [outside]

theorem step_of_inside (inside : state.pre = some pre) (token : Token) :
    state.step token = state.stepInside pre token := by
  unfold step
  rw [inside]

/-- The state that a token leads to: one case for each way in which it is taken. -/
inductive Steps (state : State) (token : Token) : State → Prop
  | skip
      (outside : state.pre = none)
      (separates : token.kind = .whitespace ∨ token.kind = .semicolon ∨ token.kind = .endOfFile) :
      Steps state token state
  | comment (outside : state.pre = none) (isComment : token.kind = .comment) :
      Steps state token (state.addNode (.comment token.text token.span))
  | keyword (outside : state.pre = none) (isKeyword : token.kind = .atKeyword) :
      Steps state token { state with pre := some ⟨some token, [], 0⟩ }
  | begins
      (outside : state.pre = none)
      (begins : token.kind.beginsPrelude = true ∨ token.kind = .lineComment)
      (noKeyword : token.kind ≠ .atKeyword) :
      Steps state token { state with pre := some (Prelude.push ⟨none, [], 0⟩ token) }
  | continues {pre : Prelude}
      (inside : state.pre = some pre)
      (continues : token.kind.continuesPrelude pre.depth = true) :
      Steps state token { state with pre := some (pre.push token) }
  /-- A block without a selector. -/
  | bareBlock (outside : state.pre = none) (isOpen : token.kind = .openBrace) :
      Steps state token (state.openBlock (.selector [] (.empty token.start)))
  | block {pre : Prelude} (inside : state.pre = some pre) (isOpen : token.kind = .openBrace) :
      Steps state token (state.openBlock (pre.toHeader token))
  | close (isClose : token.kind = .closeBrace) (nested : state.endSource.blocks ≠ []) :
      Steps state token (state.endSource.closeBlock token.span)
  | stray (isClose : token.kind = .closeBrace) (outermost : state.endSource.blocks = []) :
      Steps state token (state.endSource.addFault .unexpectedCloseBrace token.span)
  | statement {pre : Prelude}
      (inside : state.pre = some pre)
      (isSemicolon : token.kind = .semicolon)
      (level : pre.depth = 0) :
      Steps state token (state.endStatement pre (some token.span))
  | invalidOutside (outside : state.pre = none) (isInvalid : token.kind = .invalid) :
      Steps state token (state.addInvalid token)
  | invalidInside {pre : Prelude}
      (inside : state.pre = some pre)
      (isInvalid : token.kind = .invalid) :
      Steps state token { state.addInvalid token with pre := some (pre.push token) }

/-- A closing brace ends what is being read as the end of the source does. -/
theorem step_of_closeBrace (isClose : token.kind = .closeBrace) :
    state.step token =
      if state.endSource.blocks.isEmpty then
        state.endSource.addFault .unexpectedCloseBrace token.span
      else
        state.endSource.closeBlock token.span := by
  cases before : state.pre with
  | none =>
      rw [step_of_outside before, endSource_of_outside before]
      unfold stepOutside
      rw [isClose]
  | some pre =>
      rw [step_of_inside before, endSource_of_inside before]
      unfold stepInside
      rw [isClose]
      unfold stepOutside
      rw [isClose]

theorem steps (state : State) (token : Token) : Steps state token (state.step token) := by
  by_cases isClose : token.kind = .closeBrace
  · rw [step_of_closeBrace isClose]
    split
    · next outermost => exact .stray isClose (by simpa using outermost)
    · next nested => exact .close isClose (by simpa using nested)
  cases before : state.pre with
  | none =>
      rw [step_of_outside before]
      unfold stepOutside
      split
      · next kind => exact .skip before (.inl kind)
      · next kind => exact .skip before (.inr (.inl kind))
      · next kind => exact .skip before (.inr (.inr kind))
      · next kind => exact .bareBlock before kind
      · next kind => exact absurd kind isClose
      · next kind => exact .invalidOutside before kind
      · next kind => exact .comment before kind
      · next kind => exact .keyword before kind
      · next noKeyword =>
          refine .begins before ?_ noKeyword
          cases kind : token.kind <;> simp_all [TokenKind.beginsPrelude]
  | some pre =>
      rw [step_of_inside before]
      unfold stepInside
      split
      · next kind => exact .block before kind
      · next kind => exact absurd kind isClose
      · next kind =>
          split
          · next level => exact .statement before kind level
          · next nested =>
              exact .continues before (by simpa [kind, TokenKind.continuesPrelude] using nested)
      · next kind => exact .invalidInside before kind
      · refine .continues before ?_
        cases kind : token.kind <;> simp_all [TokenKind.continuesPrelude]

theorem Steps.step_eq {after : State} (steps : Steps state token after) :
    state.step token = after := by
  cases steps with
  | skip outside separates =>
      rw [step_of_outside outside]
      unfold stepOutside
      rcases separates with kind | kind | kind <;> rw [kind]
  | comment outside kind | keyword outside kind | bareBlock outside kind
  | invalidOutside outside kind =>
      rw [step_of_outside outside]
      unfold stepOutside
      rw [kind]
  | begins outside begins noKeyword =>
      rw [step_of_outside outside]
      unfold stepOutside
      cases kind : token.kind <;> simp_all [TokenKind.beginsPrelude]
  | continues inside continues =>
      rw [step_of_inside inside]
      unfold stepInside
      cases kind : token.kind <;> simp_all [TokenKind.continuesPrelude]
  | block inside kind | invalidInside inside kind =>
      rw [step_of_inside inside]
      unfold stepInside
      rw [kind]
  | close kind nested => rw [step_of_closeBrace kind, if_neg (by simpa using nested)]
  | stray kind outermost => rw [step_of_closeBrace kind, if_pos (by simpa using outermost)]
  | statement inside kind level =>
      rw [step_of_inside inside]
      unfold stepInside
      rw [kind]
      exact if_pos level

theorem steps_iff {after : State} : Steps state token after ↔ state.step token = after :=
  ⟨Steps.step_eq, fun taken => taken ▸ steps state token⟩

/-- An open brace begins a block, whose header is what was read before it, if anything. -/
theorem step_openBrace (isOpen : token.kind = .openBrace) (state : State) :
    ∃ header, state.step token = state.openBlock header ∧
      (header = .selector [] (.empty token.start) ∨
        ∃ pre, state.pre = some pre ∧ header = pre.toHeader token) := by
  cases before : state.pre with
  | none => exact ⟨_, (Steps.bareBlock before isOpen).step_eq, .inl rfl⟩
  | some pre => exact ⟨_, (Steps.block before isOpen).step_eq, .inr ⟨pre, rfl, rfl⟩⟩

/-- A token that does not end is a fault. -/
theorem step_invalid (isInvalid : token.kind = .invalid) (state : State) :
    ∃ pre, state.step token = { state.addInvalid token with pre } := by
  cases before : state.pre with
  | none => exact ⟨state.pre, (Steps.invalidOutside before isInvalid).step_eq⟩
  | some pre => exact ⟨_, (Steps.invalidInside before isInvalid).step_eq⟩

end State

end Parser
end StyleTypings
