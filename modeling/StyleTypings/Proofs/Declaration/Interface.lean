import StyleTypings.Proofs.Classes.Locating
import StyleTypings.Proofs.Declaration.Keys
import StyleTypings.Text.Blank

/-!
# Reading an interface

The interface of a default export is read as its properties in order, each a key of type
`string`. The keys denote the names of the classes just if every name is verbatim.
-/

namespace StyleTypings

open Text

namespace StringLiteral

/-- Characters up to a quote that denote a name, where the name and a quote stand in front
of a text that has no quote on its line: the characters are the name, which is verbatim. -/
theorem Denotes.eq_of_append_eq
    {body name more line rest : Text}
    {last : Char}
    (denotes : Denotes body (utf16 name))
    (noQuote : '\'' ∉ line)
    (ending : line.getLast? = some last)
    (noEscape : last ≠ '\\' ∧ last ≠ '\r')
    (split : body ++ '\'' :: more = name ++ '\'' :: (line ++ '\n' :: rest)) :
    body = name ∧ IsVerbatim name := by
  have fits := denotes.length_le
  rw [length_utf16] at fits
  have whole (same : body = name) : body = name ∧ IsVerbatim name := by
    subst same
    exact ⟨rfl, denotes.isVerbatim fun escape => Nat.lt_irrefl _ (fits.2 escape)⟩
  rcases List.append_eq_append_iff.mp split with
    ⟨middle, isName, behind⟩ | ⟨middle, isBody, behind⟩
  · -- A literal that ends before the name does denotes too little.
    cases middle with
    | nil => exact whole ((List.append_nil body).symm.trans isName.symm)
    | cons c others =>
        have positive := utf16Units_pos c
        rw [isName, utf16Size_append, utf16Size_cons] at fits
        omega
  · cases middle with
    | nil => exact whole (isBody.trans (List.append_nil name))
    | cons c others =>
        -- A literal that goes on behind the name takes in the end of the line.
        obtain ⟨rfl, later⟩ := List.cons.inj behind
        exfalso
        rcases List.append_eq_append_iff.mp later with
          ⟨past, rfl, ends⟩ | ⟨past, isLine, ends⟩
        · cases past with
          | nil => exact absurd (List.cons.inj ends).1 (by decide)
          | cons first past =>
              obtain ⟨rfl, -⟩ := List.cons.inj ends
              have placed : body = (name ++ '\'' :: line) ++ '\n' :: past := by
                rw [isBody, List.append_assoc, List.cons_append]
              obtain ⟨c, isLast, shape⟩ := denotes.exists_before_lineFeed placed
              rw [List.getLast?_append, List.getLast?_cons, ending] at isLast
              obtain rfl := Option.some.inj isLast
              exact shape.elim noEscape.1 noEscape.2
        · cases past with
          | nil => exact absurd (List.cons.inj ends).1 (by decide)
          | cons first past =>
              obtain ⟨rfl, -⟩ := List.cons.inj ends
              rw [isLine] at noQuote
              exact noQuote (List.mem_append_right _ List.mem_cons_self)

end StringLiteral

/-! ## Members -/

namespace Interface

open StringLiteral

/-- Blanks. -/
def AreBlank (text : Text) : Prop :=
  ∀ c ∈ text, isBlank c = true

instance (text : Text) : Decidable (AreBlank text) :=
  List.decidableBAll _ text

/-- A text that begins with the members of an interface and the brace that ends it, where
each member is a property of type `string` with a literal as its key. -/
inductive Members : Text → List (List Nat) → Text → Prop
  | close
      {lead rest : Text}
      (blank : AreBlank lead) :
      Members (lead ++ '}' :: rest) [] rest
  | property
      {lead key beforeColon beforeType beforeEnd text rest : Text}
      {units : List Nat}
      {keys : List (List Nat)}
      (blank : AreBlank lead)
      (denotes : Denotes key units)
      (blankColon : AreBlank beforeColon)
      (blankType : AreBlank beforeType)
      (blankEnd : AreBlank beforeEnd)
      (later : Members text keys rest) :
      Members
        (lead ++ '\'' :: (key ++ '\'' :: (beforeColon ++ ':' :: (beforeType ++
          's' :: 't' :: 'r' :: 'i' :: 'n' :: 'g' :: (beforeEnd ++ ';' :: text)))))
        (units :: keys) rest

/-- What stands behind leading blanks is the same however they are told apart. -/
theorem eq_of_blanks
    {lead other text more : Text}
    {c d : Char}
    (blank : AreBlank lead)
    (blankToo : AreBlank other)
    (solid : isBlank c = false)
    (solidToo : isBlank d = false)
    (same : lead ++ c :: text = other ++ d :: more) :
    c :: text = d :: more := by
  have dropped {lead rest : Text} {c : Char} (blank : AreBlank lead) (solid : isBlank c = false) :
      (lead ++ c :: rest).dropWhile isBlank = c :: rest := by
    rw [List.dropWhile_append_of_pos blank,
      List.dropWhile_cons_of_neg (Bool.eq_false_iff.mp solid)]
  rw [← dropped blank solid, same, dropped blankToo solidToo]

/-- The properties of verbatim names are read back as their keys. -/
theorem members_of_isVerbatim
    {names : List Text}
    (verbatim : ∀ name ∈ names, IsVerbatim name)
    (rest : Text) :
    Members ('\n' :: (names.flatMap Declaration.propertyLine ++ '}' :: rest)) (names.map utf16)
      rest := by
  have feed : AreBlank ['\n'] := by decide
  induction names with
  | nil => exact .close feed
  | cons name others inductionHypothesis =>
      obtain ⟨first, later⟩ := List.forall_mem_cons.mp verbatim
      have written : '\n' :: ((name :: others).flatMap Declaration.propertyLine ++ '}' :: rest) =
          ['\n', ' ', ' '] ++ '\'' :: (name ++ '\'' :: ([] ++ ':' :: ([' '] ++
            's' :: 't' :: 'r' :: 'i' :: 'n' :: 'g' :: ([] ++ ';' :: '\n' ::
              (others.flatMap Declaration.propertyLine ++ '}' :: rest))))) := by
        simp [Declaration.propertyLine, Declaration.propertyLead]
      rw [written]
      exact .property (by decide) first.denotes nofun (by decide) nofun
        (inductionHypothesis later)

/-- The property that is read behind the brace or behind another property: its key begins
with the name, and if it is the name, the properties behind are read on. -/
theorem property_of_members
    {name text rest : Text}
    {keys : List (List Nat)}
    (members : Members ('\n' :: (Declaration.propertyLine name ++ text)) keys rest) :
    ∃ key units others more,
      keys = units :: others ∧ Denotes key units ∧
        key ++ '\'' :: more = name ++ '\'' :: (": string;" ++ '\n' :: text) ∧
        (key = name → Members ('\n' :: text) others rest) := by
  have written : '\n' :: (Declaration.propertyLine name ++ text) =
      ['\n', ' ', ' '] ++ '\'' :: (name ++ '\'' :: (": string;" ++ '\n' :: text)) := by
    simp [Declaration.propertyLine, Declaration.propertyLead]
  rw [written] at members
  generalize isWhole : ['\n', ' ', ' '] ++ '\'' ::
    (name ++ '\'' :: (": string;" ++ '\n' :: text)) = whole at members
  cases members with
  | close blank =>
      have brace := eq_of_blanks (by decide) blank (by decide) (by decide) isWhole
      exact absurd (List.cons.inj brace).1 (by decide)
  | @property lead key beforeColon beforeType beforeEnd others _ units later
      blank denotes blankColon blankType blankEnd members =>
      have opened := (List.cons.inj
        (eq_of_blanks (by decide) blank (by decide) (by decide) isWhole)).2
      refine ⟨key, units, later, _, rfl, denotes, opened.symm, ?_⟩
      rintro rfl
      have closed := (List.cons.inj (List.append_cancel_left opened)).2
      have colon := (List.cons.inj
        (@eq_of_blanks [] _ _ _ ':' ':' nofun blankColon rfl rfl closed)).2
      have isType := @eq_of_blanks [' '] _ _ _ 's' 's' (by decide) blankType rfl rfl colon
      have ended : [] ++ ';' :: '\n' :: text = _ :=
        @List.append_cancel_left _ ['s', 't', 'r', 'i', 'n', 'g'] _ _ isType
      obtain rfl := (List.cons.inj
        (@eq_of_blanks [] _ _ _ ';' ';' nofun blankEnd rfl rfl ended)).2
      exact members

/-- Properties that are read back as the keys of their names have verbatim names. -/
theorem isVerbatim_of_members
    {names : List Text}
    {text rest : Text}
    (members : Members ('\n' :: (names.flatMap Declaration.propertyLine ++ text))
      (names.map utf16) rest) :
    ∀ name ∈ names, IsVerbatim name := by
  induction names with
  | nil => exact nofun
  | cons name others inductionHypothesis =>
      rw [List.flatMap_cons, List.append_assoc] at members
      obtain ⟨key, units, keys, more, isKeys, denotes, split, later⟩ :=
        property_of_members members
      obtain ⟨rfl, rfl⟩ := List.cons.inj isKeys
      obtain ⟨rfl, verbatim⟩ :=
        denotes.eq_of_append_eq (by decide) rfl (by decide) split
      exact List.forall_mem_cons.mpr ⟨verbatim, inductionHypothesis (later rfl)⟩

/-- The properties of verbatim names are read in no other way. -/
theorem keys_eq_of_members
    {names : List Text}
    (verbatim : ∀ name ∈ names, IsVerbatim name)
    {text rest : Text}
    {keys : List (List Nat)}
    (members : Members ('\n' :: (names.flatMap Declaration.propertyLine ++ '}' :: text))
      keys rest) :
    keys = names.map utf16 := by
  induction names generalizing keys with
  | nil =>
      have feed : AreBlank ['\n'] := by decide
      generalize isWhole : '\n' :: (List.flatMap _ [] ++ '}' :: text) = whole at members
      cases members with
      | close => rfl
      | property blank =>
          have brace := eq_of_blanks feed blank (by decide) (by decide) isWhole
          exact absurd (List.cons.inj brace).1 (by decide)
  | cons name others inductionHypothesis =>
      obtain ⟨first, behind⟩ := List.forall_mem_cons.mp verbatim
      rw [List.flatMap_cons, List.append_assoc] at members
      obtain ⟨key, units, later, more, rfl, denotes, split, more⟩ :=
        property_of_members members
      obtain ⟨rfl, rfl⟩ := denotes.eq_of_isVerbatim first split
      rw [List.map_cons, inductionHypothesis behind (more rfl)]

/-- A declaration whose interface is read as properties with the keys. -/
def HasKeys (text : Text) (keys : List (List Nat)) : Prop :=
  ∃ body rest, text = "export interface Styles \x7b" ++ body ∧ Members body keys rest

end Interface

/-! ## Declarations -/

namespace Declaration

open StringLiteral

theorem hasKeys_renderDefault_iff (classes : List NamedClass) {keys : List (List Nat)} :
    Interface.HasKeys (renderDefault classes).text keys ↔
      ∃ rest, Interface.Members
        ('\n' :: ((classes.map NamedClass.name).flatMap propertyLine ++ interfaceEnd)) keys
          rest := by
  have written : (renderDefault classes).text = "export interface Styles \x7b" ++
      '\n' :: ((classes.map NamedClass.name).flatMap propertyLine ++ interfaceEnd) := by
    unfold renderDefault
    rw [List.flatMap_map]
    simp
  constructor
  · rintro ⟨body, rest, isText, members⟩
    obtain rfl := List.append_cancel_left (isText.symm.trans written)
    exact ⟨rest, members⟩
  · rintro ⟨rest, members⟩
    exact ⟨_, rest, written, members⟩

/-- The default declaration of a text with classes is read as one property for each class
in order, whose key denotes the name of the class, just if every name is verbatim; it is
read in no other way then. -/
theorem interface_denotes_iff
    {css : Text}
    {map : Option Text}
    {format : NameFormat}
    {classes : List NamedClass}
    (named : NamedClass.ofCompiled css map format = .ok classes)
    (nonempty : (Parser.parse css).sheet.exported ≠ []) :
    let tokens := (Parser.parse css).sheet.exported
    let keys := tokens.map fun token => utf16 (format.apply token)
    ∃ declaration, render? classes .default = some declaration ∧
      (Interface.HasKeys declaration.text keys ↔
        ∀ token ∈ tokens, IsVerbatim (format.apply token)) ∧
      ((∀ token ∈ tokens, IsVerbatim (format.apply token)) →
        ∀ others, Interface.HasKeys declaration.text others → others = keys) := by
  intro tokens keys
  obtain ⟨-, isNames⟩ := NamedClass.names_of_ofCompiled_eq_ok named
  have some : classes ≠ [] := NamedClass.ne_nil_of_ofCompiled_eq_ok named nonempty
  have isKeys : (classes.map NamedClass.name).map utf16 = keys := by
    rw [isNames, List.map_map]
    rfl
  have all : (∀ name ∈ classes.map NamedClass.name, IsVerbatim name) ↔
      ∀ token ∈ tokens, IsVerbatim (format.apply token) := by
    rw [isNames, List.forall_mem_map]
  refine ⟨renderDefault classes, by simp [render?, some], ?_, ?_⟩
  · rw [hasKeys_renderDefault_iff, ← all, ← isKeys]
    constructor
    · rintro ⟨rest, members⟩
      exact Interface.isVerbatim_of_members members
    · exact fun verbatim => ⟨_, Interface.members_of_isVerbatim verbatim _⟩
  · intro verbatim others read
    obtain ⟨rest, members⟩ := (hasKeys_renderDefault_iff classes).mp read
    rw [← isKeys]
    exact Interface.keys_eq_of_members (all.mpr verbatim) members

theorem interface_denotes_iff_camel :
    NamedClass.ofCompiled ".foo-bar .😀 {}" none .camel =
        .ok [⟨"fooBar", none⟩, ⟨"😀", none⟩] ∧
      (Parser.parse ".foo-bar .😀 {}").sheet.exported =
        (["foo-bar", "😀"] : List Text) ∧
      ∃ declaration,
        render? [⟨"fooBar", none⟩, ⟨"😀", none⟩] .default = some declaration ∧
          Interface.HasKeys declaration.text
            [[0x66, 0x6F, 0x6F, 0x42, 0x61, 0x72], [0xD83D, 0xDE00]] := by
  have named : NamedClass.ofCompiled ".foo-bar .😀 {}" none .camel =
      .ok [⟨"fooBar", none⟩, ⟨"😀", none⟩] := by decide +kernel
  have exported : (Parser.parse ".foo-bar .😀 {}").sheet.exported =
      (["foo-bar", "😀"] : List Text) := by decide +kernel
  refine ⟨named, exported, ?_⟩
  obtain ⟨declaration, rendered, denotes, -⟩ :=
    interface_denotes_iff named (by rw [exported]; exact List.cons_ne_nil _ _)
  rw [exported] at denotes
  exact ⟨declaration, rendered, denotes.mpr (by decide +kernel)⟩

/-- A quote that a class name has by an escape ends the key of its property. -/
theorem quote_ends_key :
    NamedClass.ofCompiled ".a\\27 b {}" none .camel = .ok [⟨"a'b", none⟩] ∧
      ∃ declaration, render? [⟨"a'b", none⟩] .default = some declaration ∧
        ¬ Interface.HasKeys declaration.text [utf16 "a'b"] := by
  refine ⟨by decide +kernel, _, rfl, fun read => ?_⟩
  obtain ⟨rest, members⟩ := (hasKeys_renderDefault_iff [⟨"a'b", none⟩]).mp read
  have verbatim : IsVerbatim "a'b" :=
    Interface.isVerbatim_of_members members _ List.mem_cons_self
  exact absurd verbatim (by decide)

end Declaration
end StyleTypings
