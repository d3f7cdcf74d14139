import SolidityModel.Toml.Scalar
import SolidityModel.Toml.Table
import SolidityModel.Toml.Text

/-!
# Reading TOML text

A text is read in two steps: into the statements on its lines, and then, by the
rules of `Toml.Table`, into the table that these statements build.  Arrays and
inline tables may nest eighty deep, and a key may have eighty parts.  Between
brackets and between braces line breaks and comments may stand wherever blanks may,
though never inside a key.
-/

namespace SolidityModel

namespace Toml

namespace Parser

/-- The text after blanks, line breaks and comments.  `inComment` tells that a
comment has begun. -/
def skipTrivia? (inComment : Bool) : List Char → Option (List Char)
  | '\r' :: '\n' :: rest => skipTrivia? false rest
  | '\n' :: rest => skipTrivia? false rest
  | char :: rest =>
      if inComment then if isControl char then none else skipTrivia? true rest
      else if isBlank char then skipTrivia? false rest
      else if char = '#' then skipTrivia? true rest
      else some (char :: rest)
  | [] => some []

/-- The text of the next line, where nothing but a comment may be left on this
one. -/
def nextLine? (inComment : Bool) : List Char → Option (List Char)
  | '\r' :: '\n' :: rest => some rest
  | '\n' :: rest => some rest
  | char :: rest =>
      if inComment then if isControl char then none else nextLine? true rest
      else if isBlank char then nextLine? false rest
      else if char = '#' then nextLine? true rest
      else none
  | [] => some []

/-- Whether a character can stand in a key without quotes. -/
def isBareKeyChar (char : Char) : Bool :=
  char.isAlphanum || char = '_' || char = '-'

/-- One part of a key. -/
def simpleKey? : List Char → Option (String × List Char)
  | '"' :: rest => (basicBody? rest).map fun (chars, rest) => (String.ofList chars, rest)
  | '\'' :: rest => (literalBody? rest).map fun (chars, rest) => (String.ofList chars, rest)
  | input =>
      let bare := input.takeWhile isBareKeyChar
      if bare.isEmpty then none
      else some (String.ofList bare, input.dropWhile isBareKeyChar)

/-- A key, and what follows the blanks after it.  Every part takes at least one
character. -/
def key? : (bound : Nat) → List Char → Option (List String × List Char)
  | 0, _ => none
  | bound + 1, input =>
      match simpleKey? (skipBlank input) with
      | none => none
      | some (part, rest) =>
          match skipBlank rest with
          | '.' :: rest =>
              (key? bound rest).map fun (parts, rest) => (part :: parts, rest)
          | rest => some ([part], rest)

/-- The greatest depth of arrays and inline tables in each other, and the greatest
number of parts of a key. -/
def depthLimit : Nat := 80

/-- A key of no more parts than allowed. -/
def path? (bound : Nat) (input : List Char) : Option (List String × List Char) :=
  (key? bound input).filter fun (parts, _) => parts.length ≤ depthLimit

/-- A key, an equals sign and a value.  What may stand on either side of the sign is
what `skip?` passes over. -/
def pair? (skip? : List Char → Option (List Char))
    (value? : List Char → Option (Value × List Char)) (bound : Nat) (input : List Char) :
    Option ((List String × Value) × List Char) := do
  let (path, rest) ← path? bound input
  let rest ← after? '=' (← skip? rest)
  let (value, rest) ← value? (← skip? rest)
  return ((path, value), rest)

/-- The items of a list after its opening bracket, up to the closing one.  Blanks,
line breaks and comments may stand around every item, and a comma may follow the
last one. -/
def itemsUntil? {α : Type} (close : Char) (item? : List Char → Option (α × List Char)) :
    (bound : Nat) → List Char → Option (List α × List Char)
  | 0, _ => none
  | bound + 1, input =>
      match skipTrivia? false input with
      | none => none
      | some [] => none
      | some (next :: after) =>
          if next = close then some ([], after)
          else
            match item? (next :: after) with
            | none => none
            | some (item, rest) =>
                match skipTrivia? false rest with
                | some (',' :: rest) =>
                    (itemsUntil? close item? bound rest).map fun (items, rest) =>
                      (item :: items, rest)
                | some (next :: rest) => if next = close then some ([item], rest) else none
                | _ => none

/-- Whether a character ends a run of characters without quotes. -/
def endsScalar (char : Char) : Bool :=
  isBlank char || char = '\n' || char = '\r' || char = ',' || char = ']' || char = '\x7d'
    || char = '#'

/-- A run of characters without quotes.  A date may have its time after a single
space. -/
def scalarText (input : List Char) : List Char × List Char :=
  let first := input.takeWhile fun char => !endsScalar char
  let rest := input.dropWhile fun char => !endsScalar char
  match rest with
  | ' ' :: digit :: rest' =>
      if isDate first && digit.isDigit then
        (first ++ ' ' :: (digit :: rest').takeWhile (fun char => !endsScalar char),
          (digit :: rest').dropWhile fun char => !endsScalar char)
      else (first, rest)
  | rest => (first, rest)

/-- A value in which arrays and inline tables nest at most `depth` deep. -/
def value? (bound : Nat) : (depth : Nat) → List Char → Option (Value × List Char)
  | depth, input =>
      match input with
      | '[' :: rest =>
          match depth with
          | 0 => none
          | depth + 1 =>
              (itemsUntil? ']' (value? bound depth) bound rest).map fun (items, rest) =>
                (.array items, rest)
      | '\x7b' :: rest =>
          match depth with
          | 0 => none
          | depth + 1 =>
              let pair? := pair? (skipTrivia? false) (value? bound depth) bound
              match itemsUntil? '\x7d' pair? bound rest with
              | some (pairs, rest) =>
                  (Table.ofPairs? pairs).map fun fields => (.table fields, rest)
              | none => none
      | '"' :: _ =>
          (stringChars? input).map fun (chars, rest) => (.string (String.ofList chars), rest)
      | '\'' :: _ =>
          (stringChars? input).map fun (chars, rest) => (.string (String.ofList chars), rest)
      | input =>
          (scalar? (scalarText input).1).map fun value => (value, (scalarText input).2)

/-- The statement at the start of a text, and the text of the lines after it. -/
def statement? (bound : Nat) : List Char → Option (Statement × List Char)
  | '[' :: '[' :: rest =>
      match path? bound rest with
      | some (path, ']' :: ']' :: rest) =>
          (nextLine? false rest).map fun rest => (.tableInArray path, rest)
      | _ => none
  | '[' :: rest =>
      match path? bound rest with
      | some (path, ']' :: rest) => (nextLine? false rest).map fun rest => (.table path, rest)
      | _ => none
  | input =>
      match pair? (some ∘ skipBlank) (value? bound depthLimit) bound input with
      | some ((path, value), rest) =>
          (nextLine? false rest).map fun rest => (.pair path value, rest)
      | none => none

/-- The statements of a text.  Every one of them takes at least one character. -/
def statements? (bound : Nat) : (left : Nat) → List Char → Option (List Statement)
  | 0, _ => none
  | left + 1, input =>
      match skipTrivia? false input with
      | none => none
      | some [] => some []
      | some input =>
          match statement? bound input with
          | some (statement, rest) => (statements? bound left rest).map (statement :: ·)
          | none => none

/-- The text after a byte-order mark, if there is one. -/
def skipByteOrderMark : List Char → List Char
  | '\uFEFF' :: rest => rest
  | input => input

end Parser

/-- The fields of the table that a text writes. -/
def parse? (text : String) : Option (List (String × Value)) :=
  let input := Parser.skipByteOrderMark text.toList
  let bound := input.length + 1
  (Parser.statements? bound bound input).bind Table.ofStatements?

end Toml

end SolidityModel
