import StyleTypings.Text.Basic

/-!
# Aliases of import specifiers

An exact alias replaces a whole specifier. Otherwise the first prefix alias, in
order, whose key begins the specifier replaces that beginning.
-/

namespace StyleTypings

/-- Pairs of a key and a value in the order in which the keys were first put. -/
abbrev Pairs :=
  List (Text × Text)

namespace Pairs

/-- The value of a key. -/
def value? (pairs : Pairs) (key : Text) : Option Text :=
  (pairs.find? fun pair => pair.1 == key).map Prod.snd

/-- Puts a pair: a known key keeps its place and takes the new value, a new one
comes last. -/
def put (pairs : Pairs) (pair : Text × Text) : Pairs :=
  if pairs.any fun old => old.1 == pair.1 then
    pairs.map fun old => if old.1 == pair.1 then pair else old
  else
    pairs ++ [pair]

/-- Puts some pairs in turn. -/
def putAll (pairs more : Pairs) : Pairs :=
  more.foldl put pairs

end Pairs

/-- The aliases of import specifiers. -/
structure Aliases where
  exact : Pairs
  prefixes : Pairs
  deriving DecidableEq, Repr, Inhabited

namespace Aliases

/-- No aliases. -/
def none : Aliases :=
  ⟨[], []⟩

/-- Whether there are no aliases. -/
def isEmpty (aliases : Aliases) : Bool :=
  aliases.exact.isEmpty && aliases.prefixes.isEmpty

/-- The specifier by one prefix alias, if its key begins the specifier. -/
def replaceStart? (specifier : Text) (pair : Text × Text) : Option Text :=
  (Text.stripStart? pair.1 specifier).map fun rest => pair.2 ++ rest

/-- The rewritten specifier, if an alias applies. -/
def resolve? (aliases : Aliases) (specifier : Text) : Option Text :=
  match aliases.exact.value? specifier with
  | some target => some target
  | .none => aliases.prefixes.findSome? (replaceStart? specifier)

end Aliases
end StyleTypings
