import Mathlib.Data.List.Forall2
import StyleTypings.Proofs.Declaration.Identifiers
import StyleTypings.Proofs.Declaration.Places

/-!
# Classes that are kept and classes that are left out

A declaration of named exports accounts for every class: its lines have the places of those that
are kept, and its rejections name the others, both in the order of the classes. A class is left
out because its name is a reserved word or else because it has a hyphen. Names in camel case or in
the format `dashes` have no hyphen, so none of them is left out for one.
-/

namespace StyleTypings

/-! ## Reasons to leave out a name -/

/-- The reserved words are those of ECMAScript. -/
theorem isReservedWord_iff (name : Text) :
    isReservedWord name = true ↔ name ∈ Identifier.reservedWords := by
  have listed : ∀ word ∈ es5ReservedWords ++ es6ReservedWords, word ∈ Identifier.reservedWords := by
    decide +kernel
  have checked : ∀ word ∈ Identifier.reservedWords, isReservedWord word = true := by
    decide +kernel
  refine ⟨fun reserved => listed name ?_, checked name⟩
  simpa [isReservedWord] using reserved

namespace Rejection

/-- The reason to leave out a name: a reserved word is one also if it has a hyphen. -/
inductive IsReason (name : Text) : RejectionReason → Prop
  | reserved (listed : name ∈ Identifier.reservedWords) : IsReason name .reservedKeyword
  | hyphened
      (free : name ∉ Identifier.reservedWords)
      (hyphen : '-' ∈ name) :
      IsReason name .containsDashes

theorem isSome_ofName?_iff (name : Text) :
    (ofName? name).isSome = true ↔ name ∈ Identifier.reservedWords ∨ '-' ∈ name := by
  rw [Option.isSome_iff_ne_none, Ne, ofName?_eq_none_iff, ← isReservedWord_iff,
    ← Bool.not_eq_true, not_and_not_right, or_iff_not_imp_left]

/-- What is left out is named, with its reason. -/
theorem isReason_of_ofName?_eq_some
    {name : Text}
    {rejection : Rejection}
    (rejected : ofName? name = some rejection) :
    rejection.name = name ∧ IsReason name rejection.reason := by
  unfold ofName? at rejected
  split at rejected
  case isTrue reserved =>
    obtain rfl := Option.some.inj rejected
    exact ⟨rfl, .reserved ((isReservedWord_iff name).mp reserved)⟩
  case isFalse free =>
    split at rejected
    case isTrue hyphen =>
      obtain rfl := Option.some.inj rejected
      exact ⟨rfl, .hyphened (mt (isReservedWord_iff name).mpr free) (by simpa using hyphen)⟩
    case isFalse => exact absurd rejected nofun

end Rejection

namespace Declaration

/-! ## The classes that are left out -/

/-- The classes that are left out, with their places. -/
def leftOut (classes : List NamedClass) : List (NamedClass × Nat) :=
  classes.zipIdx.filter fun entry => (Rejection.ofName? entry.1.name).isSome

/-- The entries for which a partial function has a value are those of its values. -/
theorem forall₂_filterMap {α β : Type} (value : α → Option β) (items : List α) :
    List.Forall₂ (fun item result => item ∈ items ∧ value item = some result)
      (items.filter fun item => (value item).isSome) (items.filterMap value) := by
  induction items with
  | nil => exact .nil
  | cons item others inductionHypothesis =>
      have later := inductionHypothesis.imp fun {_ _} entry =>
        And.intro (List.mem_cons_of_mem item entry.1) entry.2
      cases found : value item with
      | none => simpa [found] using later
      | some result =>
          rw [List.filter_cons_of_pos (by rw [found]; rfl), List.filterMap_cons_some found]
          exact .cons ⟨List.mem_cons_self, found⟩ later

/-- A declaration of named exports accounts for all classes: each place is that of a line or is
rejected. -/
structure AccountsFor
    (classes : List NamedClass)
    (rejected : List Nat)
    (declaration : Declaration) : Prop where
  partition : (declaration.lines.map (·.index) ++ rejected).Perm (List.range classes.length)
  linesInOrder : (declaration.lines.map (·.index)).Pairwise (· < ·)
  rejectedInOrder : rejected.Pairwise (· < ·)
  mem_rejected_iff (index : Nat) : index ∈ rejected ↔ ∃ item, classes[index]? = some item ∧
    (item.name ∈ Identifier.reservedWords ∨ '-' ∈ item.name)
  rejections : List.Forall₂ (fun index rejection => ∃ item, classes[index]? = some item ∧
    rejection.name = item.name ∧ Rejection.IsReason item.name rejection.reason)
    rejected declaration.rejections
  numbered : declaration.lines.map (·.line) = List.range' 1 declaration.lines.length
  text : declaration.text = Text.join ['\n'] ((namesOn classes declaration.lines).map
    fun name => "export const " ++ name ++ ": string;") ++ ['\n']
  ending : ∀ body, declaration.text = body ++ ['\n'] → body.getLast? ≠ some '\n'
  alone : declaration.lines = [] → declaration.text = ['\n']

theorem index_lines_renderNamed (classes : List NamedClass) :
    (renderNamed classes).lines.map (·.index) = (kept classes).map Prod.snd := by
  rw [lines_renderNamed, List.map_map]
  calc _ = ((kept classes).zipIdx.map Prod.fst).map Prod.snd := List.map_map.symm
    _ = _ := by rw [List.zipIdx_map_fst]

theorem text_renderNamed (classes : List NamedClass) :
    (renderNamed classes).text = Text.join ['\n'] ((namesOn classes (renderNamed classes).lines).map
      fun name => "export const " ++ name ++ ": string;") ++ ['\n'] := by
  rw [namesOn_renderNamed, List.map_map]
  rfl

/-- Lines of named exports end in semicolons, so no line feed stands at the end of the last. -/
theorem getLast?_join_ne (names : List Text) :
    (Text.join ['\n'] (names.map fun name => "export const " ++ name ++ ": string;")).getLast? ≠
      some '\n' := by
  rcases List.eq_nil_or_concat names with rfl | ⟨front, last, rfl⟩
  · exact nofun
  · have semicolon : ("export const " ++ last ++ ": string;" : Text) =
        "export const " ++ last ++ ": string" ++ [';'] := by simp
    rw [List.concat_eq_append, List.map_append, List.map_singleton, Text.join_concat, semicolon,
      ← List.append_assoc, List.getLast?_concat]
    decide

theorem accountsFor_renderNamed (classes : List NamedClass) :
    (renderNamed classes).AccountsFor classes ((leftOut classes).map Prod.snd) := by
  have places : classes.zipIdx.map Prod.snd = List.range classes.length := by
    rw [List.zipIdx_map_snd, List.range_eq_range']
  have inOrder (keeps : NamedClass × Nat → Bool) :
      ((classes.zipIdx.filter keeps).map Prod.snd).Pairwise (· < ·) := by
    have sublist := (List.filter_sublist (p := keeps) (l := classes.zipIdx)).map Prod.snd
    rw [places] at sublist
    exact List.pairwise_lt_range.sublist sublist
  have listed {entry : NamedClass × Nat} : entry ∈ classes.zipIdx ↔
      classes[entry.2]? = some entry.1 := List.mem_zipIdx_iff_getElem?
  refine ⟨?_, ?_, inOrder _, fun index => ?_, ?_, ?_, text_renderNamed classes, ?_, ?_⟩
  · rw [index_lines_renderNamed, ← List.map_append, ← places]
    refine List.Perm.map _ (List.perm_append_comm.trans ?_)
    have divided := List.filter_append_perm
      (fun entry : NamedClass × Nat => (Rejection.ofName? entry.1.name).isSome) classes.zipIdx
    simpa [kept, leftOut] using divided
  · rw [index_lines_renderNamed]
    exact inOrder _
  · simp only [leftOut, List.mem_map, List.mem_filter, Rejection.isSome_ofName?_iff, listed]
    constructor
    · rintro ⟨entry, ⟨found, rejected⟩, rfl⟩
      exact ⟨entry.1, found, rejected⟩
    · rintro ⟨item, found, rejected⟩
      exact ⟨(item, index), ⟨found, rejected⟩, rfl⟩
  · have isListed : (renderNamed classes).rejections =
        classes.zipIdx.filterMap fun entry => Rejection.ofName? entry.1.name := by
      conv_lhs => rw [renderNamed, ← List.zipIdx_map_fst 0 classes, List.filterMap_map]
      rfl
    rw [isListed, List.forall₂_map_left_iff]
    refine (forall₂_filterMap _ _).imp fun entry rejection found => ?_
    exact ⟨entry.1, listed.mp found.1, Rejection.isReason_of_ofName?_eq_some found.2⟩
  · rw [lines_renderNamed, List.map_map, List.length_map, List.length_zipIdx]
    exact map_zipIdx_add (kept classes) 1
  · intro body isText
    rw [text_renderNamed] at isText
    exact List.append_cancel_right isText ▸ getLast?_join_ne _
  · intro nothing
    rw [text_renderNamed, nothing]
    rfl

/-- Classes are rendered as named exports that account for all of them. -/
theorem exists_accountsFor {classes : List NamedClass} (nonempty : classes ≠ []) :
    ∃ declaration rejected, render? classes .named = some declaration ∧
      declaration.AccountsFor classes rejected :=
  ⟨renderNamed classes, (leftOut classes).map Prod.snd, by simp [render?, nonempty],
    accountsFor_renderNamed classes⟩

/-- Two classes that are kept among three that are not. -/
def mixedClasses : List NamedClass :=
  [⟨"if", none⟩, ⟨"myClass", none⟩, ⟨"your-class", none⟩, ⟨"await", none⟩, ⟨"other", none⟩]

theorem exists_accountsFor_mixed :
    mixedClasses ≠ [] ∧ ∃ declaration rejected, render? mixedClasses .named = some declaration ∧
      declaration.AccountsFor mixedClasses rejected ∧
      declaration.lines.map (fun line => (line.index, line.line)) = [(1, 1), (4, 2)] ∧
      declaration.rejections = [⟨"if", .reservedKeyword⟩, ⟨"your-class", .containsDashes⟩,
        ⟨"await", .reservedKeyword⟩] := by
  have nonempty : mixedClasses ≠ [] := nofun
  obtain ⟨declaration, rejected, rendered, accounts⟩ := exists_accountsFor nonempty
  obtain rfl := Option.some.inj rendered
  exact ⟨nonempty, _, rejected, rendered, accounts, by decide +kernel, by decide +kernel⟩

/-! ## Names without hyphens -/

theorem eq_renderNamed_of_render?
    {classes : List NamedClass}
    {declaration : Declaration}
    (rendered : render? classes .named = some declaration) :
    declaration = renderNamed classes := by
  unfold render? at rendered
  split at rendered
  · exact absurd rendered nofun
  · exact (Option.some.inj rendered).symm

end Declaration

namespace NameFormat

/-- The formats that the warning of a hyphen names leave none in a name. -/
theorem hyphen_notMem_apply
    {format : NameFormat}
    (advised : format = .camel ∨ format = .dashes)
    (raw : Text) :
    '-' ∉ format.apply raw := by
  have camel : '-' ∉ camelCase raw := fun present =>
    absurd (isSeparator_of_mem_camelCase present) (by decide)
  rcases advised with rfl | rfl
  · exact camel
  · simp only [apply]
    split
    case isTrue => exact camel
    case isFalse noHyphen => simpa using noHyphen

end NameFormat

namespace Declaration

/-- Names in camel case have no separator and names in the format `dashes` no hyphen, so none of
the names that a declaration of either format rejects is rejected for a hyphen. -/
theorem reason_of_advised
    {format : NameFormat}
    (advised : format = .camel ∨ format = .dashes)
    (tokens : List (Text × Option OriginalPosition)) :
    (∀ raw, '-' ∉ format.apply raw) ∧
      (format = .camel → ∀ raw, ∀ c ∈ format.apply raw,
        c ≠ '-' ∧ c ≠ '_' ∧ c ≠ '.' ∧ Text.isBlank c = false) ∧
      ∀ declaration,
        render? (tokens.map fun token => ⟨format.apply token.1, token.2⟩) .named =
            some declaration →
          ∀ rejection ∈ declaration.rejections, rejection.reason ≠ .containsDashes := by
  refine ⟨NameFormat.hyphen_notMem_apply advised, ?_, ?_⟩
  · rintro rfl raw c present
    simpa [NameFormat.isSeparator, and_assoc] using NameFormat.isSeparator_of_mem_camelCase present
  · intro declaration rendered rejection isRejected
    rw [eq_renderNamed_of_render? rendered] at isRejected
    obtain ⟨item, among, rejected⟩ := List.mem_filterMap.mp isRejected
    obtain ⟨token, -, rfl⟩ := List.mem_map.mp among
    obtain ⟨-, reason⟩ := Rejection.isReason_of_ofName?_eq_some rejected
    intro hyphened
    rw [hyphened] at reason
    cases reason with
    | hyphened free hyphen => exact NameFormat.hyphen_notMem_apply advised token.1 hyphen

theorem reason_of_advised_dashes :
    (NameFormat.dashes = .camel ∨ NameFormat.dashes = .dashes) ∧
      NameFormat.dashes.apply "foo-bar_Baz" = "fooBarBaz".toList ∧
      '-' ∉ NameFormat.dashes.apply "foo-bar_Baz" ∧
      ∃ declaration, render? [⟨"fooBarBaz", none⟩, ⟨"new", none⟩] .named = some declaration ∧
        declaration.rejections = [⟨"new", .reservedKeyword⟩] ∧
        ∀ rejection ∈ declaration.rejections, rejection.reason ≠ .containsDashes := by
  have tokens : ([("foo-bar_Baz".toList, none), ("new".toList, none)].map fun token =>
      NamedClass.mk (NameFormat.dashes.apply token.1) token.2) =
        [⟨"fooBarBaz", none⟩, ⟨"new", none⟩] := by decide +kernel
  obtain ⟨absent, -, reasons⟩ := reason_of_advised (.inr rfl)
    [("foo-bar_Baz".toList, none), ("new".toList, none)]
  rw [tokens] at reasons
  exact ⟨.inr rfl, by decide +kernel, absent "foo-bar_Baz", _, rfl, by decide +kernel,
    reasons _ rfl⟩

end Declaration
end StyleTypings
