import StyleTypings.Compile.Aliases
import StyleTypings.Files.Path
import StyleTypings.Text.Blank

/-!
# Import specifiers

What an import names, and the files that may be meant by it.
-/

namespace StyleTypings

/-- How import specifiers are resolved. -/
structure ImportOptions where
  aliases : Aliases
  /-- Further directories in which imports are looked for. -/
  includePaths : List Path
  deriving DecidableEq, Repr, Inhabited

namespace ImportSpecifier

/-- Drops options in parentheses in front. -/
def afterOptions? (text : Text) : Option Text :=
  match text with
  | '(' :: _ => (Text.splitFirst? [')'] text).map fun found => found.2.trimStart
  | _ => some text

/-- The text between the parentheses of an address, or the whole text. -/
def insideAddress? (text : Text) : Option Text :=
  match Text.stripStart? "url(" text with
  | some body => (Text.splitFirst? [')'] body).map fun found => found.1.trim
  | none => some text

/-- The text up to the closing quote, or the first word. -/
def quotedOrWord? (text : Text) : Option Text :=
  match text with
  | [] => none
  | c :: rest =>
      if c = '"' ∨ c = '\'' then
        (Text.splitFirst? [c] rest).map Prod.fst
      else
        Text.firstWord? (c :: rest)

/-- The specifier in the params of an import. Options in parentheses may come
first, the specifier may be quoted and may be wrapped as an address, and media
queries may follow. -/
def ofParams? (params : Text) : Option Text := do
  quotedOrWord? (← insideAddress? (← afterOptions? params.trim))

/-- Whether a specifier is a web address, whose import is kept as it is. -/
def isRemote (specifier : Text) : Bool :=
  "http://".toList.isPrefixOf specifier ||
    "https://".toList.isPrefixOf specifier || "//".toList.isPrefixOf specifier

/-- The paths that a rewritten specifier may stand for. After a tilde it is
looked for in the module directories above the importing file, otherwise beside
the importing file and in the include paths. -/
def paths (includePaths : List Path) (importer : Path) (specifier : Text) : List Path :=
  let base := importer.parent?.getD ⟨[]⟩
  match specifier with
  | '~' :: module =>
      base.ancestors.map fun directory =>
        (directory.join "node_modules").join ⟨module⟩
  | _ =>
      let path : Path := ⟨specifier⟩
      if path.isAbsolute then
        [path]
      else
        base.join path :: includePaths.map fun directory => directory.join path

/-- A path with a style sheet's extension stands for itself; any other one may
lack it. -/
def withExtensions (path : Path) : List Path :=
  if path.extension? = some "less".toList ∨ path.extension? = some "css".toList then
    [path]
  else
    [path.append ".less", path.append ".css", path]

/-- The files that may be meant by a specifier, in the order in which they are
tried. -/
def candidates
    (options : ImportOptions)
    (importer : Path)
    (specifier : Text) : List Path :=
  let rewritten := (options.aliases.resolve? specifier).getD specifier
  (paths options.includePaths importer rewritten).flatMap withExtensions

end ImportSpecifier
end StyleTypings
