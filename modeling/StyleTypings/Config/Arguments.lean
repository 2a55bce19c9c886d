import StyleTypings.Config.Settings

/-!
# Command lines

The reader takes one argument at a time. A field whose value does not follow at
once after an equals sign or in the same argument stays open, and the next
argument that begins with no hyphen is its value; a hyphen alone counts as a
value or as the pattern. After two hyphens alone every argument is the pattern.

An open field is closed, and its value judged, only when the next option or the
pattern comes or the arguments end; an unknown argument and a switch with a value
are reported first.
-/

namespace StyleTypings

/-- What a command line says. -/
structure Arguments where
  pattern : Text
  settings : Settings
  deriving DecidableEq, Repr

/-- What has been read of a command line. -/
structure ArgumentReader where
  settings : Settings
  pattern : Option Text
  /-- The field that waits to be closed, with its value if that has come. -/
  opened : Option (Field × Option Text)
  /-- Whether two hyphens alone have come. -/
  onlyPattern : Bool
  deriving DecidableEq, Repr

namespace ArgumentReader

/-- Nothing has been read. -/
def start : ArgumentReader :=
  ⟨.empty, none, none, false⟩

/-- Closes the open field. -/
def close (reader : ArgumentReader) : Except ArgumentError ArgumentReader :=
  match reader.opened with
  | none => .ok reader
  | some (field, value) => do
      let settings ← reader.settings.giveOptional field value
      .ok { reader with settings, opened := none }

/-- Reads the pattern. -/
def readPattern
    (reader : ArgumentReader)
    (argument : Text) : Except ArgumentError ArgumentReader :=
  if reader.pattern.isSome then
    .error (.unknown argument)
  else do
    let reader ← reader.close
    .ok { reader with pattern := some argument }

/-- Reads a field with the value that is attached to it, if there is one. -/
def readField
    (reader : ArgumentReader)
    (field : Field)
    (attached : Option Text) : Except ArgumentError ArgumentReader := do
  let reader ← reader.close
  match attached with
  | none => .ok { reader with opened := some (field, none) }
  | some value => do
      let settings ← reader.settings.give field value
      .ok { reader with settings }

/-- Reads a switch. -/
def readSwitch
    (reader : ArgumentReader)
    (switch : Switch) : Except ArgumentError ArgumentReader := do
  let reader ← reader.close
  let settings ← reader.settings.turnOn switch
  .ok { reader with settings }

/-- A name and the value after its first equals sign. -/
def splitValue (body : Text) : Text × Option Text :=
  match Text.splitFirst? ['='] body with
  | some (name, value) => (name, some value)
  | none => (body, none)

/-- Reads what follows two hyphens. -/
def readLong
    (reader : ArgumentReader)
    (body : Text) : Except ArgumentError ArgumentReader :=
  let (name, attached) := splitValue body
  match CommandOption.ofLong? name, attached with
  | none, _ => .error (.unknown ('-' :: '-' :: body))
  | some (.field field), attached => reader.readField field attached
  | some (.switch switch), none => reader.readSwitch switch
  | some (.switch switch), some _ => .error (.unwantedValue switch)

/-- The value in the letters after the letter of a field; an equals sign in front
is dropped. -/
def attachedValue (letters : Text) : Option Text :=
  match letters with
  | [] => none
  | '=' :: value => some value
  | value => some value

/-- Reads the letters after one hyphen: switches, then at most one field with its
value. -/
def readLetters
    (reader : ArgumentReader) : Text → Except ArgumentError ArgumentReader
  | [] => .ok reader
  | letter :: rest =>
      match CommandOption.ofShort? letter with
      | none => .error (.unknown ['-', letter])
      | some (.field field) => reader.readField field (attachedValue rest)
      | some (.switch switch) => do readLetters (← reader.readSwitch switch) rest

/-- Reads an argument that is no option: the value of an open field that still
has none, or else the pattern. -/
def readPlain
    (reader : ArgumentReader)
    (argument : Text) : Except ArgumentError ArgumentReader :=
  match reader.opened with
  | some (field, none) =>
      .ok { reader with opened := some (field, some argument) }
  | _ => reader.readPattern argument

/-- Reads one argument. -/
def step
    (reader : ArgumentReader)
    (argument : Text) : Except ArgumentError ArgumentReader :=
  if reader.onlyPattern then
    reader.readPattern argument
  else
    match argument with
    | ['-', '-'] => .ok { reader with onlyPattern := true }
    | '-' :: '-' :: body => reader.readLong body
    | '-' :: letter :: rest => reader.readLetters (letter :: rest)
    | plain => reader.readPlain plain

/-- The command line when no argument is left. -/
def finish (reader : ArgumentReader) : Except ArgumentError Arguments := do
  let reader ← reader.close
  match reader.pattern with
  | some pattern => .ok ⟨pattern, reader.settings⟩
  | none => .error .missingPattern

end ArgumentReader

/-- Reads a command line, without the name of the program. -/
def Arguments.read (arguments : List Text) : Except ArgumentError Arguments := do
  let reader ← arguments.foldlM ArgumentReader.step .start
  reader.finish

end StyleTypings
