import StyleTypings.Config.Options
import StyleTypings.Declaration.Map

/-!
# Artifacts of a style sheet

The artifacts of a style sheet are the text of its declaration and of the
declaration's map. They lie beside the style sheet: the declaration's name is that
of the style sheet with `.d.ts` at its end, and the map's ends in `.d.ts.map`.
-/

namespace StyleTypings

/-- Why a style sheet has no artifacts. -/
inductive GenerateError
  /-- The style sheet cannot be read. -/
  | unreadable (path : Path) (error : FileError)
  /-- The style sheet does not compile. -/
  | compile (error : CompileError)
  /-- The compiled text has no named classes. -/
  | naming (error : NamingError)
  deriving DecidableEq, Repr

/-- The message shown to the user. -/
def GenerateError.message : GenerateError → Text
  | .unreadable path error =>
      "failed to read " ++ path.text ++ ": " ++ error.message
  | .compile error => error.describe
  | .naming error => error.message

/-- The declaration of a style sheet and its map. -/
structure Artifacts where
  /-- The text of the declaration. -/
  declaration : Text
  /-- The text of the map, also if no map is wanted. -/
  map : Text
  /-- The names left out of the declaration. -/
  rejections : List Rejection
  deriving DecidableEq, Repr

namespace Artifacts

/-- The path of the declaration of a style sheet. -/
def declarationPath (file : Path) : Path :=
  file.append ".d.ts"

/-- The path of the map of a style sheet's declaration. -/
def mapPath (file : Path) : Path :=
  file.append ".d.ts.map"

/-- The comment at the end of a declaration, if maps are wanted. -/
def footer (options : Options) (file : Path) : Text :=
  if options.declarationMap then
    Declaration.mapFooter (mapPath file).shortName
  else
    []

/-- The artifacts of a rendered declaration. -/
def ofDeclaration
    (options : Options)
    (file : Path)
    (classes : List NamedClass)
    (declaration : Declaration) : Artifacts :=
  { declaration := declaration.text ++ footer options file
    map :=
      (declaration.toSourceMap classes (declarationPath file).shortName
        file.shortName).toJson
    rejections := declaration.rejections }

/-- The artifacts of some classes; none if there is nothing to declare. -/
def ofClasses?
    (options : Options)
    (file : Path)
    (classes : List NamedClass) : Option Artifacts :=
  (Declaration.render? classes options.exportType).map
    (ofDeclaration options file classes)

end Artifacts

/-- What is needed to make artifacts. -/
structure Generator where
  options : Options
  compiler : Compiler
  deriving DecidableEq, Repr

namespace Generator

/-- A generator for a workspace. -/
def create
    (environment : Environment)
    (options : Options)
    (workspace : Path) : Action (Except CompileError Generator) :=
  (Compiler.create environment options.compiler workspace).bind fun compiler =>
    .done (compiler.map fun compiler => ⟨options, compiler⟩)

/-- How a style sheet is compiled. -/
def compileOptions (generator : Generator) (file : Path) : CompileOptions :=
  { filename := file
    imports := ⟨generator.options.aliases, generator.options.includePaths⟩
    sourceMap := true }

/-- The named classes of the outcome of a compilation. -/
def nameClasses
    (generator : Generator) :
    Except CompileError CompileOutput → Except GenerateError (List NamedClass)
  | .error error => .error (.compile error)
  | .ok output =>
      (NamedClass.ofCompiled output.css output.map
        generator.options.nameFormat).mapError .naming

/-- The named classes of a style sheet. -/
def classesOf
    (generator : Generator)
    (file : Path) : Action (Except GenerateError (List NamedClass)) :=
  (Action.readText file).bind fun content =>
  match content with
  | .error error => .done (.error (.unreadable file error))
  | .ok source =>
      (generator.compiler.compile (generator.compileOptions file) source).bind
        fun output => .done (generator.nameClasses output)

/-- The artifacts of a style sheet; none if it exports nothing. -/
def generate
    (generator : Generator)
    (file : Path) : Action (Except GenerateError (Option Artifacts)) :=
  (generator.classesOf file).bind fun classes =>
    .done (classes.map (Artifacts.ofClasses? generator.options file))

/-- Warns of the names left out. -/
def warn (rejections : List Rejection) : Action Unit :=
  (Action.forEach (fun rejection => Action.alert .warn (Rejection.message rejection))
    rejections).bind fun _ => .done ()

end Generator
end StyleTypings
