import StyleTypings.Proofs.Classes.Scoping
import StyleTypings.Proofs.Text.Joining

/-!
# Lists of selectors in parentheses

What scoping goes by in a selector is read off as a list of marks, and the scanner goes
from scopes to scopes by these marks. Around a closed selector the scopes are the same but
for the innermost, which is what its last marker outside its parentheses says. A comma
outside parentheses takes that back, one inside does not: of a list in parentheses, what
stands behind a comma is read in the scope that the selector before it leaves.
-/

namespace StyleTypings
namespace Selector

/-! ## Marks -/

/-- What scoping goes by in a selector, with parentheses that need not be closed. -/
inductive Mark
  | className (name : Text)
  | marker (isGlobal : Bool)
  | comma
  /-- A parenthesis that opens, with the scope that a marker in front of it sets. -/
  | opens (scope : Option Bool)
  | closes

namespace Mark

/-- The scopes behind a mark. -/
def step (scopes : Scopes) : Mark → Scopes
  | .className _ => scopes
  | .marker isGlobal => scopes.set isGlobal
  | .comma => scopes.afterComma
  | .opens scope => scopes.enter (scope.getD scopes.isGlobal)
  | .closes => scopes.leave

/-- The class that a mark is, if it is a local one. -/
def found (scopes : Scopes) : Mark → List Text
  | .className name => (Piece.className name).localsIn scopes.isGlobal
  | _ => []

/-- The local classes among some marks. -/
def foundAll (scopes : Scopes) : List Mark → List Text
  | [] => []
  | mark :: rest => mark.found scopes ++ foundAll (mark.step scopes) rest

/-- The scopes behind some marks. -/
def behind (scopes : Scopes) (marks : List Mark) : Scopes :=
  marks.foldl step scopes

@[simp] theorem behind_nil (scopes : Scopes) : behind scopes [] = scopes := rfl

@[simp] theorem behind_cons (scopes : Scopes) (mark : Mark) (rest : List Mark) :
    behind scopes (mark :: rest) = behind (mark.step scopes) rest := rfl

theorem behind_append (scopes : Scopes) (front back : List Mark) :
    behind scopes (front ++ back) = behind (behind scopes front) back :=
  List.foldl_append

theorem foundAll_append (scopes : Scopes) (front back : List Mark) :
    foundAll scopes (front ++ back) =
      foundAll scopes front ++ foundAll (behind scopes front) back := by
  induction front generalizing scopes with
  | nil => rfl
  | cons mark rest inductionHypothesis =>
      rw [List.cons_append, foundAll, foundAll, inductionHypothesis, List.append_assoc]
      rfl

end Mark

/-- A text that begins with some marks. -/
inductive Reads : Text → List Mark → Text → Prop
  | stop (rest : Text) : Reads rest [] rest
  | skip
      {text middle rest : Text}
      {marks : List Mark}
      (skips : Skips text middle)
      (later : Reads middle marks rest) :
      Reads text marks rest
  | className
      {text name middle rest : Text}
      {marks : List Mark}
      (begins : BeginsClass text)
      (spelled : Spelled text name middle)
      (later : Reads middle marks rest) :
      Reads ('.' :: text) (.className name :: marks) rest
  | marker
      {text name middle rest : Text}
      {isGlobal : Bool}
      {marks : List Mark}
      (spelled : Spelled (dropColon text) name middle)
      (isMarker : markerOf? name = some isGlobal)
      (bare : middle.head? ≠ some '(')
      (later : Reads middle marks rest) :
      Reads (':' :: text) (.marker isGlobal :: marks) rest
  | comma
      {text rest : Text}
      {marks : List Mark}
      (later : Reads text marks rest) :
      Reads (',' :: text) (.comma :: marks) rest
  | function
      {text name inner rest : Text}
      {scope : Option Bool}
      {marks : List Mark}
      (spelled : Spelled (dropColon text) name ('(' :: inner))
      (isScope : markerOf? name = scope)
      (later : Reads inner marks rest) :
      Reads (':' :: text) (.opens scope :: marks) rest
  | parens
      {text rest : Text}
      {marks : List Mark}
      (later : Reads text marks rest) :
      Reads ('(' :: text) (.opens none :: marks) rest
  | close
      {text rest : Text}
      {marks : List Mark}
      (later : Reads text marks rest) :
      Reads (')' :: text) (.closes :: marks) rest

/-- The scanner goes by the marks. -/
theorem Reads.classesFrom_eq
    {text rest : Text}
    {marks : List Mark}
    (reads : Reads text marks rest)
    (scopes : Scopes) :
    classesFrom scopes text =
      Mark.foundAll scopes marks ++ classesFrom (Mark.behind scopes marks) rest := by
  induction reads generalizing scopes with
  | stop rest => rfl
  | skip skips later inductionHypothesis =>
      rw [skips.classesFrom_eq, inductionHypothesis]
  | className begins spelled later inductionHypothesis =>
      rw [classesFrom_className begins spelled, inductionHypothesis, Mark.foundAll,
        List.append_assoc]
      rfl
  | marker spelled isMarker bare later inductionHypothesis =>
      rw [classesFrom_marker spelled isMarker bare, inductionHypothesis]
      rfl
  | comma later inductionHypothesis =>
      rw [classesFrom_comma, inductionHypothesis]
      rfl
  | function spelled isScope later inductionHypothesis =>
      rw [classesFrom_function spelled isScope, inductionHypothesis]
      rfl
  | parens later inductionHypothesis =>
      rw [classesFrom_open, inductionHypothesis]
      rfl
  | close later inductionHypothesis =>
      rw [classesFrom_close, inductionHypothesis]
      rfl

theorem Reads.trans
    {text middle rest : Text}
    {marks others : List Mark}
    (reads : Reads text marks middle)
    (more : Reads middle others rest) :
    Reads text (marks ++ others) rest := by
  induction reads with
  | stop => exact more
  | skip skips _ inductionHypothesis => exact .skip skips (inductionHypothesis more)
  | className begins spelled _ inductionHypothesis =>
      exact .className begins spelled (inductionHypothesis more)
  | marker spelled isMarker bare _ inductionHypothesis =>
      exact .marker spelled isMarker bare (inductionHypothesis more)
  | comma _ inductionHypothesis => exact .comma (inductionHypothesis more)
  | function spelled isScope _ inductionHypothesis =>
      exact .function spelled isScope (inductionHypothesis more)
  | parens _ inductionHypothesis => exact .parens (inductionHypothesis more)
  | close _ inductionHypothesis => exact .close (inductionHypothesis more)

/-! ## Texts that go on -/

/-- A text that is empty or begins with a comma or a parenthesis that closes, neither of
which is part of what stands before it. -/
def Divides (text : Text) : Prop :=
  ∀ c ∈ text.head?, c = ',' ∨ c = ')'

section Dividing

variable {more : Text} (divides : Divides more)
include divides

/-- What the first character satisfies, it satisfies with the text behind it. -/
theorem Divides.forall_head?_append
    {text : Text}
    {holds : Char → Prop}
    (own : ∀ c ∈ text.head?, holds c)
    (comma : holds ',')
    (close : holds ')') :
    ∀ c ∈ (text ++ more).head?, holds c := by
  cases text with
  | nil =>
      intro c isFirst
      rcases divides c isFirst with rfl | rfl
      · exact comma
      · exact close
  | cons first rest => exact own

theorem Divides.dropColon_append (text : Text) :
    dropColon (text ++ more) = dropColon text ++ more := by
  cases text with
  | nil =>
      cases more with
      | nil => rfl
      | cons c rest => rcases divides c rfl with rfl | rfl <;> rfl
  | cons first rest => unfold dropColon; split <;> simp_all

theorem Divides.dropBlank_append (text : Text) :
    dropBlank (text ++ more) = dropBlank text ++ more := by
  cases text with
  | nil =>
      cases more with
      | nil => rfl
      | cons c rest => rcases divides c rfl with rfl | rfl <;> rfl
  | cons first rest =>
      rw [List.cons_append, dropBlank, dropBlank]
      split <;> rfl

theorem Divides.beginsClass_append_iff (text : Text) :
    BeginsClass (text ++ more) ↔ BeginsClass text := by
  cases text with
  | nil =>
      refine iff_of_false ?_ (fun ⟨_, isFirst, _⟩ => absurd isFirst nofun)
      rintro ⟨c, isFirst, shape⟩
      rcases divides c isFirst with rfl | rfl <;> exact absurd shape (by decide)
  | cons first rest => rfl

theorem Spelled.append
    {text name rest : Text}
    (spelled : Spelled text name rest) :
    Spelled (text ++ more) name (rest ++ more) := by
  induction spelled with
  | stop ends =>
      exact .stop (divides.forall_head?_append ends (by decide) (by decide))
  | char isName _ inductionHypothesis => exact .char isName inductionHypothesis
  | hidden noDigit _ inductionHypothesis => exact .hidden noDigit inductionHypothesis
  | @code digits text _ _ hex nonempty atMost whole _ inductionHypothesis =>
      rw [← divides.dropBlank_append] at inductionHypothesis
      rw [List.cons_append, List.append_assoc]
      exact .code hex nonempty atMost
        (whole.imp_right fun ends =>
          divides.forall_head?_append ends (by decide) (by decide))
        inductionHypothesis

omit divides in
theorem Quoted.append
    {quote : Char}
    {text rest : Text}
    (quoted : Quoted quote text rest)
    (more : Text) :
    Quoted quote (text ++ more) (rest ++ more) := by
  induction quoted with
  | close rest => exact .close (rest ++ more)
  | char plain inside _ inductionHypothesis => exact .char plain inside inductionHypothesis
  | hidden c _ inductionHypothesis => exact .hidden c inductionHypothesis

omit divides in
theorem Tested.append
    {text rest : Text}
    (tested : Tested text rest)
    (more : Text) :
    Tested (text ++ more) (rest ++ more) := by
  induction tested with
  | close rest => exact .close (rest ++ more)
  | char other _ inductionHypothesis => exact .char other inductionHypothesis
  | hidden c _ inductionHypothesis => exact .hidden c inductionHypothesis
  | quoted isQuote string _ inductionHypothesis =>
      exact .quoted isQuote (string.append more) inductionHypothesis

theorem Divides.bare_append
    {text : Text}
    (bare : text.head? ≠ some '(') :
    (text ++ more).head? ≠ some '(' := by
  have plain : ∀ c ∈ text.head?, c ≠ '(' := by
    rintro c isFirst rfl
    exact bare isFirst
  intro isFirst
  exact divides.forall_head?_append plain (by decide) (by decide) '(' isFirst rfl

theorem Skips.append
    {text rest : Text}
    (skips : Skips text rest) :
    Skips (text ++ more) (rest ++ more) := by
  cases skips with
  | other isOther noComment =>
      refine .other isOther fun comment => noComment ?_
      cases rest with
      | nil =>
          cases more with
          | nil => exact comment
          | cons next rest =>
              obtain ⟨-, inner⟩ := List.cons_prefix_cons.mp comment
              obtain ⟨rfl, -⟩ := List.cons_prefix_cons.mp inner
              exact absurd (divides '*' rfl) (by decide)
      | cons next others =>
          obtain ⟨isSlash, inner⟩ := List.cons_prefix_cons.mp comment
          obtain ⟨isStar, -⟩ := List.cons_prefix_cons.mp inner
          exact List.cons_prefix_cons.mpr
            ⟨isSlash, List.cons_prefix_cons.mpr ⟨isStar, List.nil_prefix⟩⟩
  | string isQuote string => exact .string isQuote (string.append more)
  | test test => exact .test (test.append more)
  | id spelled => exact .id (spelled.append divides)
  | escaped spelled => exact .escaped (spelled.append divides)
  | number noClass spelled =>
      exact .number (mt (divides.beginsClass_append_iff _).mp noClass)
        (spelled.append divides)
  | pseudo spelled noMarker bare =>
      have longer := spelled.append divides
      rw [← divides.dropColon_append] at longer
      exact .pseudo longer noMarker (divides.bare_append bare)

/-- What is read off a text is read off it with a divided text behind it. -/
theorem Reads.append
    {text rest : Text}
    {marks : List Mark}
    (reads : Reads text marks rest) :
    Reads (text ++ more) marks (rest ++ more) := by
  induction reads with
  | stop rest => exact .stop (rest ++ more)
  | skip skips _ inductionHypothesis => exact .skip (skips.append divides) inductionHypothesis
  | className begins spelled _ inductionHypothesis =>
      exact .className ((divides.beginsClass_append_iff _).mpr begins)
        (spelled.append divides) inductionHypothesis
  | marker spelled isMarker bare _ inductionHypothesis =>
      have longer := spelled.append divides
      rw [← divides.dropColon_append] at longer
      exact .marker longer isMarker (divides.bare_append bare) inductionHypothesis
  | comma _ inductionHypothesis => exact .comma inductionHypothesis
  | function spelled isScope _ inductionHypothesis =>
      have longer := spelled.append divides
      rw [← divides.dropColon_append] at longer
      exact .function longer isScope inductionHypothesis
  | parens _ inductionHypothesis => exact .parens inductionHypothesis
  | close _ inductionHypothesis => exact .close inductionHypothesis

end Dividing

/-! ## Closed selectors -/

namespace Piece

mutual

/-- The marks of a piece. -/
def marks : Piece → List Mark
  | .className name => [.className name]
  | .marker isGlobal => [.marker isGlobal]
  | .comma => [.comma]
  | .parens scope body => .opens scope :: (marksAll body ++ [.closes])

/-- The marks of some pieces. -/
def marksAll : List Piece → List Mark
  | [] => []
  | piece :: rest => piece.marks ++ marksAll rest

end

/-- The scope that the last marker outside the parentheses of some pieces sets. -/
def lastMarker? (pieces : List Piece) : Option Bool :=
  pieces.reverse.findSome? marker?

mutual

/-- The local classes of a piece within parentheses, given the scope in front of it. -/
def heldIn (isGlobal : Bool) : Piece → List Text
  | .className name => (Piece.className name).localsIn isGlobal
  | .parens scope body => heldInAll (scope.getD isGlobal) body
  | _ => []

/-- The local classes of some pieces within parentheses, where each marker sets the scope
of all pieces behind it. -/
def heldInAll (isGlobal : Bool) : List Piece → List Text
  | [] => []
  | piece :: rest =>
      piece.heldIn isGlobal ++ heldInAll (piece.marker?.getD isGlobal) rest

end

theorem marksAll_append (front back : List Piece) :
    marksAll (front ++ back) = marksAll front ++ marksAll back := by
  induction front with
  | nil => rfl
  | cons piece rest inductionHypothesis =>
      rw [List.cons_append, marksAll, marksAll, inductionHypothesis, List.append_assoc]

theorem lastMarker?_cons (piece : Piece) (rest : List Piece) :
    lastMarker? (piece :: rest) = (lastMarker? rest).or piece.marker? := by
  unfold lastMarker?
  rw [List.reverse_cons, List.findSome?_append, List.findSome?_singleton]

theorem getD_lastMarker?_cons (piece : Piece) (rest : List Piece) (isGlobal : Bool) :
    (lastMarker? (piece :: rest)).getD isGlobal =
      (lastMarker? rest).getD (piece.marker?.getD isGlobal) := by
  rw [lastMarker?_cons]
  cases lastMarker? rest <;> rfl

theorem heldInAll_append (isGlobal : Bool) (front back : List Piece) :
    heldInAll isGlobal (front ++ back) =
      heldInAll isGlobal front ++ heldInAll ((lastMarker? front).getD isGlobal) back := by
  induction front generalizing isGlobal with
  | nil => rfl
  | cons piece rest inductionHypothesis =>
      rw [List.cons_append, heldInAll, heldInAll, inductionHypothesis, getD_lastMarker?_cons,
        List.append_assoc]

end Piece

namespace Scopes

@[simp] theorem set_isGlobal (scopes : Scopes) : scopes.set scopes.isGlobal = scopes := by
  rcases scopes with ⟨bare, inner⟩
  cases inner <;> rfl

@[simp] theorem isGlobal_set (scopes : Scopes) (isGlobal : Bool) :
    (scopes.set isGlobal).isGlobal = isGlobal := by
  rcases scopes with ⟨bare, inner⟩
  cases inner <;> rfl

@[simp] theorem set_set (scopes : Scopes) (isGlobal other : Bool) :
    (scopes.set isGlobal).set other = scopes.set other := by
  rcases scopes with ⟨bare, inner⟩
  cases inner <;> rfl

@[simp] theorem inner_set_eq_nil_iff (scopes : Scopes) (isGlobal : Bool) :
    (scopes.set isGlobal).inner = [] ↔ scopes.inner = [] := by
  rcases scopes with ⟨bare, inner⟩
  cases inner <;> simp [set]

end Scopes

namespace Piece

mutual

/-- Behind a piece the scopes are the same but for the innermost, which within parentheses
only a marker changes. -/
theorem exists_behind_marks :
    (piece : Piece) → (scopes : Scopes) →
      ∃ isGlobal, Mark.behind scopes piece.marks = scopes.set isGlobal ∧
        (scopes.inner ≠ [] → isGlobal = piece.marker?.getD scopes.isGlobal)
  | .className name, scopes => ⟨scopes.isGlobal, by simp [marks, Mark.step], fun _ => rfl⟩
  | .marker isGlobal, scopes => ⟨isGlobal, rfl, fun _ => rfl⟩
  | .comma, scopes => by
      by_cases outside : scopes.inner = []
      · rcases scopes with ⟨bare, inner⟩
        obtain rfl := outside
        exact ⟨false, rfl, absurd rfl⟩
      · refine ⟨scopes.isGlobal, ?_, fun _ => rfl⟩
        have kept : scopes.afterComma = scopes := by
          unfold Scopes.afterComma
          rw [List.isEmpty_eq_false_iff.mpr outside]
          rfl
        rw [Scopes.set_isGlobal]
        exact kept
  | .parens scope body, scopes => by
      obtain ⟨isGlobal, isBehind, -⟩ :=
        exists_behind_marksAll body (scopes.enter (scope.getD scopes.isGlobal))
      refine ⟨scopes.isGlobal, ?_, fun _ => rfl⟩
      rw [marks, Mark.behind_cons, Mark.behind_append, Mark.step, isBehind,
        Scopes.set_isGlobal]
      rfl

/-- Behind some pieces the scopes are the same but for the innermost, which within
parentheses is what the last marker says. -/
theorem exists_behind_marksAll :
    (pieces : List Piece) → (scopes : Scopes) →
      ∃ isGlobal, Mark.behind scopes (marksAll pieces) = scopes.set isGlobal ∧
        (scopes.inner ≠ [] → isGlobal = (lastMarker? pieces).getD scopes.isGlobal)
  | [], scopes => ⟨scopes.isGlobal, (Scopes.set_isGlobal scopes).symm, fun _ => rfl⟩
  | piece :: rest, scopes => by
      obtain ⟨first, isFirst, firstScope⟩ := exists_behind_marks piece scopes
      obtain ⟨last, isLast, lastScope⟩ := exists_behind_marksAll rest (scopes.set first)
      refine ⟨last, ?_, fun nested => ?_⟩
      · rw [marksAll, Mark.behind_append, isFirst, isLast, Scopes.set_set]
      · rw [lastScope (mt (scopes.inner_set_eq_nil_iff first).mp nested),
          Scopes.isGlobal_set, firstScope nested, getD_lastMarker?_cons]

end

theorem behind_marksAll
    {scopes : Scopes}
    (nested : scopes.inner ≠ [])
    (pieces : List Piece) :
    Mark.behind scopes (marksAll pieces) =
      scopes.set ((lastMarker? pieces).getD scopes.isGlobal) := by
  obtain ⟨isGlobal, isBehind, isLast⟩ := exists_behind_marksAll pieces scopes
  rw [isBehind, isLast nested]

mutual

theorem foundAll_marks :
    (piece : Piece) → {scopes : Scopes} → scopes.inner ≠ [] →
      Mark.foundAll scopes piece.marks = piece.heldIn scopes.isGlobal
  | .className _, _, _ => List.append_nil _
  | .marker _, _, _ => rfl
  | .comma, _, _ => rfl
  | .parens scope body, scopes, _ => by
      have nested : (scopes.enter (scope.getD scopes.isGlobal)).inner ≠ [] :=
        List.cons_ne_nil _ _
      have inside := foundAll_marksAll body nested
      rw [marks, Mark.foundAll, Mark.foundAll_append, Mark.step, inside]
      exact List.append_nil _

/-- Within parentheses the marks have the classes that the pieces hold. -/
theorem foundAll_marksAll :
    (pieces : List Piece) → {scopes : Scopes} → scopes.inner ≠ [] →
      Mark.foundAll scopes (marksAll pieces) = heldInAll scopes.isGlobal pieces
  | [], _, _ => rfl
  | piece :: rest, scopes, nested => by
      obtain ⟨isGlobal, isBehind, isScope⟩ := exists_behind_marks piece scopes
      have later := foundAll_marksAll rest
        (mt (scopes.inner_set_eq_nil_iff isGlobal).mp nested)
      rw [marksAll, Mark.foundAll_append, foundAll_marks piece nested, isBehind, later,
        Scopes.isGlobal_set, isScope nested]
      rfl

end

end Piece

/-- A selector in which everything is closed, without comments. -/
def IsClosed (selector : Text) (pieces : List Piece) : Prop :=
  Reads selector (Piece.marksAll pieces) []

namespace IsClosed

open Piece

variable {left right : Text} {first second : List Piece}

theorem reads_append
    (closed : IsClosed left first)
    {more : Text}
    (divides : Divides more) :
    Reads (left ++ more) (marksAll first) more := by
  have reads := Reads.append divides closed
  rwa [List.nil_append] at reads

/-- Closed selectors with a comma between them. -/
theorem list
    (isFirst : IsClosed left first)
    (isSecond : IsClosed right second) :
    IsClosed (left ++ ',' :: right) (first ++ .comma :: second) := by
  have divides : Divides (',' :: right) := by
    rintro c ⟨⟩
    exact .inl rfl
  unfold IsClosed
  rw [marksAll_append]
  exact (isFirst.reads_append divides).trans (.comma isSecond)

/-- Outside parentheses a list exports what its selectors do. -/
theorem classes_list
    (isFirst : IsClosed left first)
    (right : Text) :
    classes (left ++ ',' :: right) = classes left ++ classes right := by
  have divides : Divides (',' :: right) := by
    rintro c ⟨⟩
    exact .inl rfl
  obtain ⟨isGlobal, isBehind, -⟩ := exists_behind_marksAll first Scopes.start
  have reset : (Scopes.start.set isGlobal).afterComma = Scopes.start := rfl
  unfold classes
  rw [(isFirst.reads_append divides).classesFrom_eq, Reads.classesFrom_eq isFirst, isBehind,
    classesFrom_comma, reset]
  have nothing (scopes : Scopes) : classesFrom scopes [] = [] := by
    rw [classesFrom]
  rw [nothing, List.append_nil]

end IsClosed

/-! ## Lists in parentheses -/

/-- A text that, whatever stands behind it, is read as some marks. -/
def Leads (opening : Text) (marks : List Mark) : Prop :=
  ∀ more, Reads (opening ++ more) marks more

/-- Around what parentheses without a marker hold, the classes are always the same. -/
theorem Leads.exists_around
    {opening : Text}
    {before : List Mark}
    (leads : Leads opening (before ++ [.opens none]))
    (closing : Text) :
    ∃ front back, ∀ inner pieces, IsClosed inner pieces →
      classes (opening ++ (inner ++ ')' :: closing)) =
        front ++
          (Piece.heldInAll (Mark.behind Scopes.start before).isGlobal pieces ++ back) := by
  let around := Mark.behind Scopes.start before
  refine ⟨Mark.foundAll Scopes.start (before ++ [.opens none]), classesFrom around closing,
    fun inner pieces closed => ?_⟩
  have divides : Divides (')' :: closing) := by
    rintro c ⟨⟩
    exact .inr rfl
  have nested : (around.enter around.isGlobal).inner ≠ [] := List.cons_ne_nil _ _
  have opened : Mark.behind Scopes.start (before ++ [.opens none]) =
      around.enter around.isGlobal := Mark.behind_append _ _ _
  unfold classes
  rw [(leads _).classesFrom_eq, opened, (closed.reads_append divides).classesFrom_eq,
    Piece.foundAll_marksAll pieces nested, Piece.behind_marksAll nested, classesFrom_close]
  rfl

/-- The classes that a rule with a selector and no more exports. -/
def exportedBy (selector : Text) : List Text :=
  Stylesheet.exported ⟨[.rule selector ⟨0, 0⟩ ⟨0, 0⟩ []], ⟨0, 0⟩⟩

theorem exportedBy_eq (selector : Text) : exportedBy selector = (classes selector).eraseDups := by
  simp [exportedBy, Stylesheet.exported, Exported.ofForest, Exported.ofNode]

theorem spelled_of_isNameChar
    {name : Text}
    (plain : ∀ c ∈ name, isNameChar c = true) :
    Spelled name name [] := by
  induction name with
  | nil => exact .stop nofun
  | cons c rest inductionHypothesis =>
      obtain ⟨isName, later⟩ := List.forall_mem_cons.mp plain
      exact .char isName (inductionHypothesis later)

/-- A class of name characters, the first of which is no digit. -/
theorem isClosed_className
    {c : Char}
    {rest : Text}
    (plain : ∀ other ∈ c :: rest, isNameChar other = true)
    (noDigit : c.isDigit = false) :
    IsClosed ('.' :: c :: rest) [.className (c :: rest)] :=
  .className ⟨c, rfl, .inr ⟨plain c List.mem_cons_self, noDigit⟩⟩
    (spelled_of_isNameChar plain) (.stop [])

theorem isClosed_letter
    {c : Char}
    (plain : isNameChar c = true)
    (noDigit : c.isDigit = false) :
    IsClosed ['.', c] [.className [c]] :=
  isClosed_className (List.forall_mem_singleton.mpr plain) noDigit

/-- Some class is none of given names. -/
theorem exists_className_notMem (names : List Text) :
    ∃ right name, IsClosed right [.className name] ∧ name ≠ [] ∧ name ∉ names := by
  let size := names.flatten.length
  have plain : ∀ other ∈ 'a' :: List.replicate size 'a', isNameChar other = true := by
    intro other present
    rw [← List.replicate_succ] at present
    exact List.eq_of_mem_replicate present ▸ rfl
  refine ⟨_, _, isClosed_className plain rfl, List.cons_ne_nil _ _, fun among => ?_⟩
  have bound := (List.sublist_flatten_of_mem among).length_le
  rw [List.length_cons, List.length_replicate] at bound
  omega

/-- Behind the comma of a list in parentheses without a marker, a selector exports what it
does in the scope that the one before it leaves. So it exports the same as by itself,
whatever it is, just if the last marker of the one before it outside its parentheses, if
there is any, sets the scope around them. Outside parentheses it always exports the same. -/
theorem list_in_parentheses
    {opening left : Text}
    {before : List Mark}
    {first : List Piece}
    (leads : Leads opening (before ++ [.opens none]))
    (isFirst : IsClosed left first)
    (closing : Text) :
    let around := (Mark.behind Scopes.start before).isGlobal
    let last := (Piece.lastMarker? first).getD around
    let within := fun inner : Text => opening ++ (inner ++ ')' :: closing)
    (∃ front back, ∀ right second, IsClosed right second →
      classes (within left) = front ++ (Piece.heldInAll around first ++ back) ∧
        classes (within right) = front ++ (Piece.heldInAll around second ++ back) ∧
        classes (within (left ++ ',' :: right)) =
          front ++ (Piece.heldInAll around first ++ Piece.heldInAll last second ++ back)) ∧
    (exportedBy (within []) = [] →
      ((∀ right second, IsClosed right second →
          exportedBy (within (left ++ ',' :: right)) =
            (exportedBy (within left) ++ exportedBy (within right)).eraseDups) ↔
        last = around)) ∧
    ∀ right, exportedBy (left ++ ',' :: right) =
      (exportedBy left ++ exportedBy right).eraseDups := by
  intro around last within
  obtain ⟨front, back, held⟩ : ∃ front back, ∀ inner pieces, IsClosed inner pieces →
      classes (within inner) = front ++ (Piece.heldInAll around pieces ++ back) :=
    leads.exists_around closing
  have listed (right : Text) (second : List Piece) (isSecond : IsClosed right second) :
      classes (within (left ++ ',' :: right)) =
        front ++ (Piece.heldInAll around first ++ Piece.heldInAll last second ++ back) := by
    rw [held _ _ (isFirst.list isSecond), Piece.heldInAll_append]
    rfl
  refine ⟨⟨front, back, fun right second isSecond => ?_⟩, fun nothing => ?_, fun right => ?_⟩
  · exact ⟨held left first isFirst, held right second isSecond, listed right second isSecond⟩
  · have noClass : classes (within []) = [] := by
      cases found : classes (within []) with
      | nil => rfl
      | cons name others =>
          rw [exportedBy_eq, found, List.eraseDups_cons] at nothing
          exact absurd nothing (List.cons_ne_nil _ _)
    have empty : front = [] ∧ back = [] := by
      have all : front ++ ([] ++ back) = [] := (held [] [] (.stop [])).symm.trans noClass
      exact List.append_eq_nil_iff.mp all
    obtain ⟨rfl, rfl⟩ := empty
    have law (right : Text) (second : List Piece) (isSecond : IsClosed right second) :
        exportedBy (within (left ++ ',' :: right)) =
            (exportedBy (within left) ++ exportedBy (within right)).eraseDups ↔
          (Piece.heldInAll around first ++ Piece.heldInAll last second).eraseDups =
            (Piece.heldInAll around first ++ Piece.heldInAll around second).eraseDups := by
      rw [exportedBy_eq, exportedBy_eq, exportedBy_eq, Text.eraseDups_append_eraseDups,
        listed right second isSecond, held left first isFirst, held right second isSecond]
      simp only [List.nil_append, List.append_nil]
    constructor
    · intro holds
      obtain ⟨right, name, isSecond, nonempty, fresh⟩ :=
        exists_className_notMem (Piece.heldInAll around first)
      have same := (law right _ isSecond).mp (holds right _ isSecond)
      have shown : name ∈ Piece.heldInAll last [.className name] ↔
          name ∈ Piece.heldInAll around [.className name] := by
        have iff := congrArg (name ∈ ·) same
        simpa [fresh] using iff
      simpa [Piece.heldInAll, Piece.heldIn, Piece.localsIn, nonempty] using shown
    · intro same right second isSecond
      rw [law right second isSecond, same]
  · rw [exportedBy_eq, exportedBy_eq, exportedBy_eq, isFirst.classes_list,
      Text.eraseDups_append_eraseDups]

/-- An opening of two pseudo-classes that are no markers, one within the other. -/
def nestedOpening : Text :=
  [':', 'n', 'o', 't', '(', ':', 'i', 's', '(']

theorem leads_nestedOpening : Leads nestedOpening ([.opens none] ++ [.opens none]) := by
  intro more
  have opens (rest : Text) : ∀ c ∈ ('(' :: rest).head?, isNameChar c = false ∧ c ≠ '\\' := by
    rintro c ⟨⟩
    decide
  exact .function (.char rfl (.char rfl (.char rfl (.stop (opens _))))) (by decide +kernel) <|
    .function (.char rfl (.char rfl (.stop (opens _)))) (by decide +kernel) (.stop more)

theorem list_in_parentheses_nested :
    Leads nestedOpening ([.opens none] ++ [.opens none]) ∧
      IsClosed ['.', 'a'] [.className ['a']] ∧
      exportedBy (nestedOpening ++ ([] ++ [')', ')'])) = [] ∧
      ∀ right second, IsClosed right second →
        exportedBy (nestedOpening ++ (['.', 'a'] ++ ',' :: right ++ [')', ')'])) =
          (exportedBy (nestedOpening ++ (['.', 'a'] ++ [')', ')'])) ++
            exportedBy (nestedOpening ++ (right ++ [')', ')']))).eraseDups := by
  have isFirst : IsClosed ['.', 'a'] [.className ['a']] := isClosed_letter rfl rfl
  have nothing : exportedBy (nestedOpening ++ ([] ++ [')', ')'])) = [] := by decide +kernel
  obtain ⟨-, law, -⟩ := list_in_parentheses leads_nestedOpening isFirst [')']
  exact ⟨leads_nestedOpening, isFirst, nothing, (law nothing).mpr rfl⟩

/-- A class behind a marker by itself. -/
def globalSelector : Text :=
  [':', 'g', 'l', 'o', 'b', 'a', 'l', ' ', '.', 'a']

/-- A marker by itself hides the class behind the comma in the same parentheses. -/
theorem marker_hides_list :
    IsClosed globalSelector [.marker true, .className ['a']] ∧
      IsClosed [' ', '.', 'b'] [.className ['b']] ∧
      exportedBy (":is(" ++ (globalSelector ++ [',', ' ', '.', 'b', ')'])) = [] ∧
      exportedBy (":is(" ++ (globalSelector ++ [')'])) = [] ∧
      exportedBy (":is(" ++ [' ', '.', 'b', ')']) = [['b']] := by
  have space (rest : Text) : Skips (' ' :: rest) rest :=
    .other (by decide) (by simp)
  have ends (rest : Text) : ∀ c ∈ (' ' :: rest).head?, isNameChar c = false ∧ c ≠ '\\' := by
    rintro c ⟨⟩
    decide
  have isMarker : IsClosed globalSelector [.marker true, .className ['a']] :=
    .marker
      (.char rfl (.char rfl (.char rfl (.char rfl (.char rfl (.char rfl (.stop (ends _))))))))
      (by decide +kernel) (by decide) <|
    .skip (space _) (isClosed_letter rfl rfl)
  have isClass : IsClosed [' ', '.', 'b'] [.className ['b']] :=
    .skip (space _) (isClosed_letter rfl rfl)
  exact ⟨isMarker, isClass, by decide +kernel, by decide +kernel, by decide +kernel⟩

end Selector
end StyleTypings
