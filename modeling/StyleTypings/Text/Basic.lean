/-!
# Texts

A text is the list of its characters. Offsets into a text count the bytes of
its UTF-8 form, and columns may also count UTF-16 units; both are measures on
the list. Cutting a text at a byte offset succeeds exactly on a character
boundary.

The searches at the end of the module find a separator from the left or from
the right and return the two texts around it.
-/

namespace StyleTypings

/-- A text is the list of its characters. -/
abbrev Text := List Char

instance : Coe String Text := ⟨String.toList⟩

namespace Text

/-- Number of bytes of the UTF-8 form. -/
def byteSize : Text → Nat
  | [] => 0
  | c :: rest => c.utf8Size + byteSize rest

@[simp] theorem byteSize_nil : byteSize [] = 0 := rfl

@[simp] theorem byteSize_cons (c : Char) (rest : Text) :
    byteSize (c :: rest) = c.utf8Size + byteSize rest := rfl

@[simp] theorem byteSize_append (front back : Text) :
    byteSize (front ++ back) = byteSize front + byteSize back := by
  induction front with
  | nil => simp
  | cons c rest inductionHypothesis =>
      simp [inductionHypothesis, Nat.add_assoc]

/-- Number of UTF-16 units of a character: a surrogate pair past the first
plane. -/
def utf16Units (c : Char) : Nat :=
  if c.toNat < 0x10000 then 1 else 2

/-- Number of UTF-16 units. -/
def utf16Size : Text → Nat
  | [] => 0
  | c :: rest => utf16Units c + utf16Size rest

@[simp] theorem utf16Size_nil : utf16Size [] = 0 := rfl

@[simp] theorem utf16Size_cons (c : Char) (rest : Text) :
    utf16Size (c :: rest) = utf16Units c + utf16Size rest := rfl

@[simp] theorem utf16Size_append (front back : Text) :
    utf16Size (front ++ back) = utf16Size front + utf16Size back := by
  induction front with
  | nil => simp
  | cons c rest inductionHypothesis =>
      simp [inductionHypothesis, Nat.add_assoc]

/-- The text from a byte offset on, if the offset is a character boundary. -/
def dropBytes? : Nat → Text → Option Text
  | 0, text => some text
  | _ + 1, [] => none
  | offset + 1, c :: rest =>
      if c.utf8Size ≤ offset + 1 then
        dropBytes? (offset + 1 - c.utf8Size) rest
      else
        none

/-- The text before a byte offset, if the offset is a character boundary. -/
def takeBytes? : Nat → Text → Option Text
  | 0, _ => some []
  | _ + 1, [] => none
  | offset + 1, c :: rest =>
      if c.utf8Size ≤ offset + 1 then
        (takeBytes? (offset + 1 - c.utf8Size) rest).map (c :: ·)
      else
        none

/-- The bytes from `start` up to `stop` as a text, if both are character
boundaries of the text and in order. -/
def slice?
    (start stop : Nat)
    (text : Text) : Option Text :=
  if start ≤ stop then
    (dropBytes? start text).bind (takeBytes? (stop - start))
  else
    none

/-- Joins texts with a separator between each two. -/
def join (separator : Text) (parts : List Text) : Text :=
  separator.intercalate parts

/-- The text after a leading part, if the text starts with it. -/
def stripStart? (front text : Text) : Option Text :=
  front.isPrefixOf? text

/-- The texts before and after the first occurrence of a separator. -/
def splitFirst? (separator : Text) : Text → Option (Text × Text)
  | [] =>
      if separator.isEmpty then some ([], []) else none
  | c :: rest =>
      match separator.isPrefixOf? (c :: rest) with
      | some after => some ([], after)
      | none =>
          (splitFirst? separator rest).map fun found => (c :: found.1, found.2)

/-- The texts before and after the last occurrence of a separator. -/
def splitLast? (separator : Text) : Text → Option (Text × Text)
  | [] =>
      if separator.isEmpty then some ([], []) else none
  | c :: rest =>
      match splitLast? separator rest with
      | some found => some (c :: found.1, found.2)
      | none =>
          (separator.isPrefixOf? (c :: rest)).map fun after => ([], after)

/-- The texts between the occurrences of a character; always at least one. -/
def splitAt (separator : Char) : Text → List Text
  | [] => [[]]
  | c :: rest =>
      if c = separator then
        [] :: splitAt separator rest
      else
        match splitAt separator rest with
        | [] => [[c]]
        | first :: others => (c :: first) :: others

/-- Drops the characters at the end that satisfy a test. -/
def dropEndWhile (test : Char → Bool) (text : Text) : Text :=
  (text.reverse.dropWhile test).reverse

/-- ASCII letters in lower case; every other character is kept. -/
def asciiLower (text : Text) : Text :=
  text.map Char.toLower

/-- Equality up to the case of ASCII letters. -/
def equalsIgnoringCase (left right : Text) : Bool :=
  asciiLower left == asciiLower right

/-- The decimal digits of a number. -/
def ofNat (n : Nat) : Text :=
  Nat.toDigits 10 n

end Text
end StyleTypings
