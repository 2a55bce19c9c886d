import StyleTypings.Json.Token

/-!
# Reading JSON

The reader is a machine that takes one token at a time. It keeps the containers
that are still open, innermost first, each with what it has collected so far in
reverse, and what may come next.
-/

namespace StyleTypings
namespace Json

/-- An open container. -/
inductive Frame
  /-- The items of an array so far, last first. -/
  | items (reversed : List Json)
  /-- The members of an object so far, last first, and the key of the next. -/
  | members (reversed : List (Option Text × Json)) (key : Option Text)
  deriving Repr

/-- What the reader waits for. -/
inductive Reader
  /-- A value; an array may also end when it is just open. -/
  | value (justOpen : Bool) (frames : List Frame)
  /-- A key; an object may also end when it is just open. -/
  | key
      (justOpen : Bool)
      (reversed : List (Option Text × Json))
      (frames : List Frame)
  /-- The colon after a key. -/
  | colon
      (reversed : List (Option Text × Json))
      (key : Option Text)
      (frames : List Frame)
  /-- A comma or the end of an array. -/
  | afterItem (reversed : List Json) (frames : List Frame)
  /-- A comma or the end of an object. -/
  | afterMember (reversed : List (Option Text × Json)) (frames : List Frame)
  /-- Nothing more. -/
  | finished (value : Json)
  | failed
  deriving Repr

namespace Reader

/-- Puts a complete value into the innermost open container. -/
def accept (content : Json) : List Frame → Reader
  | [] => .finished content
  | .items reversed :: frames => .afterItem (content :: reversed) frames
  | .members reversed name :: frames =>
      .afterMember ((name, content) :: reversed) frames

/-- Takes one token. -/
def step : Reader → Token → Reader
  | .value _ frames, .scalar content => accept content frames
  | .value _ frames, .openArray => .value true (.items [] :: frames)
  | .value _ frames, .openObject => .key true [] frames
  | .value true (.items [] :: frames), .closeArray => accept (.array []) frames
  | .key _ reversed frames, .scalar (.string text) => .colon reversed text frames
  | .key true [] frames, .closeObject => accept (.object []) frames
  | .colon reversed name frames, .colon =>
      .value false (.members reversed name :: frames)
  | .afterItem reversed frames, .comma => .value false (.items reversed :: frames)
  | .afterItem reversed frames, .closeArray =>
      accept (.array reversed.reverse) frames
  | .afterMember reversed frames, .comma => .key false reversed frames
  | .afterMember reversed frames, .closeObject =>
      accept (.object reversed.reverse) frames
  | _, _ => .failed

end Reader

/-- The value that a text holds, if it is one JSON value with blanks around. -/
def read? (text : Text) : Option Json := do
  let tokens ← tokens? text
  match tokens.foldl Reader.step (.value false []) with
  | .finished value => some value
  | _ => none

end Json
end StyleTypings
