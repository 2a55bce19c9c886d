import StyleTypings.Declaration.Render
import StyleTypings.Proofs.Classes.Locating
import StyleTypings.Proofs.Classes.Words

/-!
# Constants of a declaration

A declaration of named exports has one constant for each class whose name is not left out.
Reserved words and names with a hyphen are left out, but no other names, so a constant is
declared under an identifier just if the letters that its name keeps of the class name are
one: a class name may begin with a digit, or have by escapes what no identifier has.
-/

namespace StyleTypings

namespace Identifier

/-- The reserved words of ECMAScript in a module, which is strict, and the two names that no
constant may have in strict code. -/
def reservedWords : List Text :=
  [ "await", "break", "case", "catch", "class", "const", "continue", "debugger", "default",
    "delete", "do", "else", "enum", "export", "extends", "false", "finally", "for",
    "function", "if", "import", "in", "instanceof", "new", "null", "return", "super",
    "switch", "this", "throw", "true", "try", "typeof", "var", "void", "while", "with",
    "yield", "let", "static", "implements", "interface", "package", "private", "protected",
    "public", "arguments", "eval" ].map String.toList

end Identifier

/-! ## Names that are not left out -/

theorem Rejection.ofName?_eq_none_iff (name : Text) :
    ofName? name = none ↔ isReservedWord name = false ∧ '-' ∉ name := by
  unfold ofName?
  cases isReservedWord name <;> simp

/-- A name that is not left out is no reserved word and has no hyphen. -/
theorem Rejection.free_of_isNone_ofName?
    {name : Text}
    (stays : (ofName? name).isNone = true) :
    name ∉ Identifier.reservedWords ∧ '-' ∉ name := by
  have checked : ∀ word ∈ Identifier.reservedWords, isReservedWord word = true := by
    decide +kernel
  obtain ⟨free, noHyphen⟩ :=
    (Rejection.ofName?_eq_none_iff name).mp (Option.isNone_iff_eq_none.mp stays)
  exact ⟨fun listed => Bool.false_ne_true (free.symm.trans (checked name listed)), noHyphen⟩

namespace Declaration

/-- The classes that are kept have the names that are not left out. -/
theorem names_kept (classes : List NamedClass) :
    (kept classes).map (fun entry => entry.1.name) =
      (classes.map NamedClass.name).filter fun name => (Rejection.ofName? name).isNone := by
  rw [List.filter_map]
  have first : classes = classes.zipIdx.map Prod.fst := (List.zipIdx_map_fst 0 classes).symm
  conv_rhs => rw [first, List.filter_map, List.map_map]
  rfl

/-! ## Reading constants -/

/-- A module that declares constants of type `string`, a line for each, under their names. -/
inductive Constants : Text → List Text → Prop
  | nil : Constants [] []
  | blank
      {text : Text}
      {names : List Text}
      (later : Constants text names) :
      Constants ('\n' :: text) names
  | constant
      {name text : Text}
      {names : List Text}
      (identifier : IsIdentifier name)
      (free : name ∉ Identifier.reservedWords)
      (later : Constants text names) :
      Constants (namedLine name ++ '\n' :: text) (name :: names)

theorem Constants.isIdentifier
    {text : Text}
    {names : List Text}
    (constants : Constants text names) :
    ∀ name ∈ names, IsIdentifier name := by
  induction constants with
  | nil => exact nofun
  | blank later inductionHypothesis => exact inductionHypothesis
  | constant identifier free later inductionHypothesis =>
      exact List.forall_mem_cons.mpr ⟨identifier, inductionHypothesis⟩

/-- Lines of identifiers that are not reserved declare them. -/
theorem constants_join
    {names : List Text}
    (identifiers : ∀ name ∈ names, IsIdentifier name)
    (free : ∀ name ∈ names, name ∉ Identifier.reservedWords) :
    Constants (Text.join ['\n'] (names.map namedLine) ++ ['\n']) names := by
  induction names with
  | nil => exact .blank .nil
  | cons name others inductionHypothesis =>
      obtain ⟨identifier, identifiers⟩ := List.forall_mem_cons.mp identifiers
      obtain ⟨freeFirst, free⟩ := List.forall_mem_cons.mp free
      have later := inductionHypothesis identifiers free
      cases others with
      | nil =>
          have single : Text.join ['\n'] ([name].map namedLine) = namedLine name := by
            simp [Text.join]
          rw [single]
          exact .constant identifier freeFirst .nil
      | cons second others =>
          rw [List.map_cons, List.map_cons, Text.join_cons_cons, List.append_assoc,
            List.append_assoc]
          exact .constant identifier freeFirst later

/-- The named declaration of a text with classes has a line for each class whose name is not
left out. No name is a reserved word, and it is an identifier just if the letters that it
keeps of the class name are; the lines are constants under these names just if all are. -/
theorem constants_iff
    {css : Text}
    {map : Option Text}
    {format : NameFormat}
    {classes : List NamedClass}
    (named : NamedClass.ofCompiled css map format = .ok classes)
    (nonempty : (Parser.parse css).sheet.exported ≠ []) :
    let tokens := (Parser.parse css).sheet.exported.filter fun token =>
      (Rejection.ofName? (format.apply token)).isNone
    ∃ declaration, render? classes .named = some declaration ∧
      declaration.text =
        Text.join ['\n'] (tokens.map fun token => namedLine (format.apply token)) ++ ['\n'] ∧
      (∀ token ∈ tokens, format.apply token ∉ Identifier.reservedWords ∧
        (IsIdentifier (format.apply token) ↔ IsIdentifier (format.letters token))) ∧
      (Constants declaration.text (tokens.map format.apply) ↔
        ∀ token ∈ tokens, IsIdentifier (format.letters token)) := by
  intro tokens
  obtain ⟨-, isNames⟩ := NamedClass.names_of_ofCompiled_eq_ok named
  have some : classes ≠ [] := NamedClass.ne_nil_of_ofCompiled_eq_ok named nonempty
  have lines : (kept classes).map (fun entry => entry.1.name) = tokens.map format.apply := by
    rw [names_kept, isNames, List.filter_map]
    rfl
  have isText : (renderNamed classes).text =
      Text.join ['\n'] ((tokens.map format.apply).map namedLine) ++ ['\n'] := by
    rw [← lines, List.map_map]
    rfl
  have names : ∀ token ∈ tokens, format.apply token ∉ Identifier.reservedWords ∧
      (IsIdentifier (format.apply token) ↔ IsIdentifier (format.letters token)) := by
    intro token present
    obtain ⟨free, noHyphen⟩ :=
      Rejection.free_of_isNone_ofName? (List.mem_filter.mp present).2
    exact ⟨free, NameFormat.isIdentifier_apply_iff noHyphen⟩
  refine ⟨renderNamed classes, by simp [render?, some], ?_, names, ?_⟩
  · rw [isText, List.map_map]
    rfl
  · rw [isText]
    constructor
    · intro constants token present
      have identifier := constants.isIdentifier _ (List.mem_map_of_mem present)
      exact (names token present).2.mp identifier
    · intro identifiers
      refine constants_join (List.forall_mem_map.mpr fun token present => ?_)
        (List.forall_mem_map.mpr fun token present => (names token present).1)
      exact (names token present).2.mpr (identifiers token present)

theorem constants_iff_camel :
    NamedClass.ofCompiled ".foo-bar .if .é {}" none .camel =
        .ok [⟨"fooBar", none⟩, ⟨"if", none⟩, ⟨"é", none⟩] ∧
      (Parser.parse ".foo-bar .if .é {}").sheet.exported =
        (["foo-bar", "if", "é"] : List Text) ∧
      ∃ declaration,
        render? [⟨"fooBar", none⟩, ⟨"if", none⟩, ⟨"é", none⟩] .named = some declaration ∧
          declaration.text = "export const fooBar: string;\nexport const é: string;\n" ∧
          Constants declaration.text (["fooBar", "é"] : List Text) := by
  have named : NamedClass.ofCompiled ".foo-bar .if .é {}" none .camel =
      .ok [⟨"fooBar", none⟩, ⟨"if", none⟩, ⟨"é", none⟩] := by decide +kernel
  have exported : (Parser.parse ".foo-bar .if .é {}").sheet.exported =
      (["foo-bar", "if", "é"] : List Text) := by decide +kernel
  have kept : (["foo-bar", "if", "é"] : List Text).filter (fun token =>
      (Rejection.ofName? (NameFormat.camel.apply token)).isNone) =
        (["foo-bar", "é"] : List Text) := by decide +kernel
  have names : (["foo-bar", "é"] : List Text).map NameFormat.camel.apply =
      (["fooBar", "é"] : List Text) := by decide +kernel
  refine ⟨named, exported, ?_⟩
  obtain ⟨declaration, rendered, isText, -, declares⟩ :=
    constants_iff named (by rw [exported]; exact List.cons_ne_nil _ _)
  rw [exported, kept] at isText declares
  rw [names] at declares
  refine ⟨declaration, rendered, isText.trans ?_, declares.mpr (by decide +kernel)⟩
  decide +kernel

/-- A class name of digits, which it has by an escape, is declared as it is. -/
theorem digits_declared :
    NamedClass.ofCompiled ".\\31 0 {}" none .camel = .ok [⟨"10", none⟩] ∧
      ∃ declaration, render? [⟨"10", none⟩] .named = some declaration ∧
        declaration.text = "export const 10: string;\n" ∧ ¬ IsIdentifier "10" :=
  ⟨by decide +kernel, _, rfl, by decide +kernel, by decide +kernel⟩

end Declaration
end StyleTypings
