import StyleTypings.Compile.Bundle
import StyleTypings.Proofs.Text.Cutting

/-!
# How a bundle is laid out

Putting a sheet together copies pieces of its units, each to the end of the
bundle as it is then. The placements say which piece of which unit went where.
They follow one another without overlap, each piece stands in the finished
bundle at its base, and the beginnings that a bundle lists are those of the
placements, in order.
-/

namespace StyleTypings

/-- A piece of a unit and the offset that its first byte was copied to. -/
structure Placement where
  unit : SourceUnit
  range : Span
  base : Nat

namespace Placement

/-- The text that was copied. -/
def text (placement : Placement) : Text :=
  placement.range.slice placement.unit.text

/-- The beginnings of nodes that were copied. -/
def starts (root : Path) (placement : Placement) : List CopiedStart :=
  (placement.unit.starts.filter fun start =>
    placement.range.start ≤ start && start < placement.range.stop).filterMap
    (Bundle.copyStart? placement.unit (Bundle.sourceName root placement.unit.path)
      placement.base placement.range.start)

/-- The piece stands in a text at its base. -/
def LiesIn (css : Text) (placement : Placement) : Prop :=
  ∃ front back : Text, css = front ++ (placement.text ++ back) ∧
    front.byteSize = placement.base

theorem LiesIn.append
    {css : Text}
    {placement : Placement}
    (lies : placement.LiesIn css)
    (more : Text) :
    placement.LiesIn (css ++ more) := by
  obtain ⟨front, back, rfl, base⟩ := lies
  exact ⟨front, back ++ more, by simp, base⟩

end Placement

namespace Bundle

mutual

/-- Where the pieces of a sheet go that is added to a bundle. -/
def placements (root : Path) (bundle : Bundle) : LinkedSheet → List Placement
  | .sheet unit pieces tail =>
      placementsOfPieces root unit bundle pieces ++
        [⟨unit, tail, (addPieces root unit bundle pieces).css.byteSize⟩]

/-- Where pieces of a unit go, with the sheets imported after them. -/
def placementsOfPieces
    (root : Path)
    (unit : SourceUnit)
    (bundle : Bundle) : List (Span × Option LinkedSheet) → List Placement
  | [] => []
  | (range, none) :: rest =>
      ⟨unit, range, bundle.css.byteSize⟩ ::
        placementsOfPieces root unit (bundle.copy root unit range) rest
  | (range, some sheet) :: rest =>
      ⟨unit, range, bundle.css.byteSize⟩ ::
        (placements root (bundle.copy root unit range) sheet ++
          placementsOfPieces root unit
            (addSheet root (bundle.copy root unit range) sheet).endLine rest)

end

/-- Placements stand in a text one after the other between two offsets. -/
def LaidOut (css : Text) (low high : Nat) : List Placement → Prop
  | [] => low ≤ high
  | placement :: rest =>
      low ≤ placement.base ∧ placement.LiesIn css ∧
        LaidOut css (placement.base + placement.text.byteSize) high rest

theorem LaidOut.mono
    {css : Text}
    {low low' high high' : Nat}
    {placed : List Placement}
    (laid : LaidOut css low high placed)
    (lower : low' ≤ low)
    (higher : high ≤ high')
    (more : Text) :
    LaidOut (css ++ more) low' high' placed := by
  induction placed generalizing low low' with
  | nil => exact Nat.le_trans lower (Nat.le_trans laid higher)
  | cons placement rest inductionHypothesis =>
      exact ⟨Nat.le_trans lower laid.1, laid.2.1.append more,
        inductionHypothesis laid.2.2 (Nat.le_refl _)⟩

theorem LaidOut.lower
    {css : Text}
    {low low' high : Nat}
    {placed : List Placement}
    (laid : LaidOut css low high placed)
    (lower : low' ≤ low) :
    LaidOut css low' high placed := by
  cases placed with
  | nil => exact Nat.le_trans lower laid
  | cons placement rest => exact ⟨Nat.le_trans lower laid.1, laid.2⟩

theorem LaidOut.append
    {css : Text}
    {low middle high : Nat}
    {front back : List Placement}
    (first : LaidOut css low middle front)
    (second : LaidOut css middle high back) :
    LaidOut css low high (front ++ back) := by
  induction front generalizing low with
  | nil => exact second.lower first
  | cons placement rest inductionHypothesis =>
      exact ⟨first.1, first.2.1, inductionHypothesis first.2.2⟩

/-- A bundle has grown by some placements. -/
structure Grows
    (root : Path)
    (before after : Bundle)
    (placed : List Placement) : Prop where
  css : ∃ added : Text, after.css = before.css ++ added
  copied : after.copied = before.copied ++ placed.flatMap (·.starts root)
  laid : LaidOut after.css before.css.byteSize after.css.byteSize placed

theorem Grows.trans
    {root : Path}
    {first second third : Bundle}
    {front back : List Placement}
    (earlier : Grows root first second front)
    (later : Grows root second third back) :
    Grows root first third (front ++ back) := by
  obtain ⟨⟨added, firstCss⟩, firstCopied, firstLaid⟩ := earlier
  obtain ⟨⟨more, secondCss⟩, secondCopied, secondLaid⟩ := later
  refine ⟨⟨added ++ more, ?_⟩, ?_, ?_⟩
  · rw [secondCss, firstCss, List.append_assoc]
  · rw [secondCopied, firstCopied, List.flatMap_append, List.append_assoc]
  · refine .append ?_ secondLaid
    rw [secondCss]
    exact firstLaid.mono (Nat.le_refl _) (Nat.le_refl _) more

/-- Copying adds the piece and its beginnings, also when there is nothing to be
copied. -/
theorem copy_eq
    (bundle : Bundle)
    (root : Path)
    (unit : SourceUnit)
    (range : Span) :
    bundle.copy root unit range =
      { css := bundle.css ++ range.slice unit.text
        copied := bundle.copied ++
          (⟨unit, range, bundle.css.byteSize⟩ : Placement).starts root } := by
  unfold copy Placement.starts
  split
  · next backwards =>
      have nothing : range.slice unit.text = [] := Span.slice_of_stop_le backwards unit.text
      have noStarts : (unit.starts.filter fun start =>
          range.start ≤ start && start < range.stop) = [] := by
        apply List.filter_eq_nil_iff.mpr
        intro start _ inside
        simp only [Bool.and_eq_true, decide_eq_true_eq] at inside
        omega
      rw [nothing, noStarts]
      simp
  · rfl

theorem grows_copy
    (bundle : Bundle)
    (root : Path)
    (unit : SourceUnit)
    (range : Span) :
    Grows root bundle (bundle.copy root unit range)
      [⟨unit, range, bundle.css.byteSize⟩] := by
  rw [copy_eq]
  refine ⟨⟨_, rfl⟩, by simp, Nat.le_refl _, ⟨bundle.css, [], ?_, rfl⟩, ?_⟩
  · simp [Placement.text]
  · exact Nat.le_of_eq (Text.byteSize_append _ _).symm

theorem grows_endLine (bundle : Bundle) (root : Path) :
    Grows root bundle bundle.endLine [] := by
  unfold endLine
  split
  · exact ⟨⟨[], by simp⟩, by simp, Nat.le_refl _⟩
  · refine ⟨⟨['\n'], rfl⟩, by simp, ?_⟩
    rw [LaidOut, Text.byteSize_append]
    exact Nat.le_add_right _ _

mutual

/-- Adding a sheet grows a bundle by the placements of the sheet. -/
theorem grows_addSheet
    (root : Path)
    (bundle : Bundle) :
    (sheet : LinkedSheet) →
      Grows root bundle (addSheet root bundle sheet) (placements root bundle sheet)
  | .sheet unit pieces tail =>
      (grows_addPieces root unit bundle pieces).trans (grows_copy _ root unit tail)

/-- Adding pieces grows a bundle by their placements. -/
theorem grows_addPieces
    (root : Path)
    (unit : SourceUnit)
    (bundle : Bundle) :
    (pieces : List (Span × Option LinkedSheet)) →
      Grows root bundle (addPieces root unit bundle pieces)
        (placementsOfPieces root unit bundle pieces)
  | [] => ⟨⟨[], (List.append_nil _).symm⟩, (List.append_nil _).symm, Nat.le_refl _⟩
  | (range, none) :: rest =>
      (grows_copy bundle root unit range).trans (grows_addPieces root unit _ rest)
  | (range, some sheet) :: rest => by
      have copied := grows_copy bundle root unit range
      have added := copied.trans (grows_addSheet root _ sheet)
      have ended := added.trans (grows_endLine _ root)
      have whole := ended.trans (grows_addPieces root unit _ rest)
      rw [List.append_nil] at whole
      exact whole

end

end Bundle
end StyleTypings
