import StyleTypings.Json.Basic

/-!
# Typed views of JSON values

Each reader takes the number of arrays and objects that may still be opened and
answers only for a value of its shape. A record is an object with known keys,
none of them twice, or an array of the fields in order.
-/

namespace StyleTypings
namespace Json

/-- A typed view of a value, given how many containers may still be opened. -/
abbrev View (α : Type) :=
  Nat → Json → Option α

namespace View

/-- A text. -/
def text : View Text
  | _, .string text => text
  | _, _ => none

/-- A truth value. -/
def bool : View Bool
  | _, .bool value => some value
  | _, _ => none

/-- A natural number below a bound. -/
def natBelow (bound : Nat) : View Nat
  | _, .number literal => literal.natBelow? bound
  | _, _ => none

/-- A word of 32 bits. -/
def word : View UInt32 :=
  fun room value => (natBelow UInt32.size room value).map Nat.toUInt32

/-- Any value whose texts and numbers are proper. -/
def any : View Json
  | room, value =>
      if value.isProper && value.depth ≤ room then some value else none

/-- A value or null. -/
def optional {α : Type} (item : View α) : View (Option α)
  | _, .null => some none
  | room, value => (item room value).map some

/-- An array of values. -/
def list {α : Type} (item : View α) : View (List α)
  | room + 1, .array items => items.mapM (item room)
  | _, _ => none

/-- The members of an object with text keys and values, in order. -/
def pairs : View (List (Text × Text))
  | room + 1, .object members =>
      members.mapM fun member => do
        some (← member.1, ← text room member.2)
  | _, _ => none

end View

/-- The value of a key. -/
def member? (members : List (Option Text × Json)) (name : Text) : Option Json :=
  (members.find? fun entry => entry.1 == some name).map Prod.snd

/-- Whether every key is a text, no known key occurs twice, and, if `closed`,
every key is known. -/
def keysFit
    (names : List Text)
    (closed : Bool)
    (members : List (Option Text × Json)) : Bool :=
  let keys := members.map Prod.fst
  keys.all (·.isSome) &&
    names.all (fun name => keys.count (some name) ≤ 1) &&
    (!closed || keys.all fun key => key.any names.contains)

/-- The fields of a record, in the order of their names. As an array it has all
fields, or, if `shorter`, the first few. -/
def record?
    (names : List Text)
    (closed shorter : Bool) : Json → Option (List (Option Json))
  | .object members =>
      if keysFit names closed members then
        some (names.map (member? members))
      else
        none
  | .array items =>
      if items.length = names.length ∨
          (shorter = true ∧ items.length < names.length) then
        some (items.map some ++ List.replicate (names.length - items.length) none)
      else
        none
  | _ => none

/-- A field that may be missing or null. -/
def optionalField {α : Type}
    (item : View α)
    (room : Nat)
    (field : Option Json) : Option (Option α) :=
  match field with
  | none => some none
  | some value => View.optional item room value

/-- A field that must be present. -/
def requiredField {α : Type}
    (item : View α)
    (room : Nat)
    (field : Option Json) : Option α :=
  field.bind (item room)

/-- A field with a value of its own where it is missing. -/
def defaultField {α : Type}
    (item : View α)
    (missing : α)
    (room : Nat)
    (field : Option Json) : Option α :=
  match field with
  | none => some missing
  | some value => item room value

end Json
end StyleTypings
