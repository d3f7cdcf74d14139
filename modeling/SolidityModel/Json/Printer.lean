import SolidityModel.Json
import SolidityModel.Text.Digit

/-!
# Writing JSON text

Two layouts: the compact one has no white space at all, and the indented one
gives every item and field a line of its own, two spaces deeper than its
container.  Both write an empty array as `[]` and an empty object as two braces.
Strings escape quotes, backslashes and the characters below U+0020, and nothing
else.
-/

namespace SolidityModel

namespace Json

namespace Printer

/-- The written form of one character of a string. -/
def escape (char : Char) : List Char :=
  if char = '"' then ['\\', '"']
  else if char = '\\' then ['\\', '\\']
  else if char = '\x08' then ['\\', 'b']
  else if char = '\x0c' then ['\\', 'f']
  else if char = '\n' then ['\\', 'n']
  else if char = '\r' then ['\\', 'r']
  else if char = '\t' then ['\\', 't']
  else if char.toNat < 0x20 then
    ['\\', 'u', '0', '0', Text.lowerHexDigit (char.toNat / 16),
      Text.lowerHexDigit (char.toNat % 16)]
  else [char]

/-- A string between quotes. -/
def quoted (text : String) : String :=
  "\"" ++ String.ofList (text.toList.flatMap escape) ++ "\""

/-- The text of a value that holds no other values. -/
def scalar : Json → String
  | null => "null"
  | bool true => "true"
  | bool false => "false"
  | number text => text
  | string text => quoted text
  | array _ => "[]"
  | object _ => "\x7b\x7d"

mutual

/-- A value without white space. -/
def compact : Json → String
  | array items => "[" ++ String.intercalate "," (compactItems items) ++ "]"
  | object fields => "\x7b" ++ String.intercalate "," (compactFields fields) ++ "\x7d"
  | value => scalar value

/-- The items of an array without white space. -/
def compactItems : List Json → List String
  | [] => []
  | item :: rest => compact item :: compactItems rest

/-- The fields of an object without white space. -/
def compactFields : List (String × Json) → List String
  | [] => []
  | (name, value) :: rest => (quoted name ++ ":" ++ compact value) :: compactFields rest

end

/-- The start of a line at a depth. -/
def lineStart (depth : Nat) : String :=
  "\n" ++ String.ofList (List.replicate (2 * depth) ' ')

/-- Entries on lines of their own between two brackets. -/
def bracketed (depth : Nat) (opening closing : String) (entries : List String) : String :=
  opening ++ lineStart (depth + 1) ++ String.intercalate ("," ++ lineStart (depth + 1)) entries
    ++ lineStart depth ++ closing

mutual

/-- A value with its parts on lines of their own. -/
def indented (depth : Nat) : Json → String
  | array (item :: rest) => bracketed depth "[" "]" (indentedItems (depth + 1) (item :: rest))
  | object (field :: rest) =>
      bracketed depth "\x7b" "\x7d" (indentedFields (depth + 1) (field :: rest))
  | value => scalar value

/-- The items of an array, each with its own lines. -/
def indentedItems (depth : Nat) : List Json → List String
  | [] => []
  | item :: rest => indented depth item :: indentedItems depth rest

/-- The fields of an object, each with its own lines. -/
def indentedFields (depth : Nat) : List (String × Json) → List String
  | [] => []
  | (name, value) :: rest =>
      (quoted name ++ ": " ++ indented depth value) :: indentedFields depth rest

end

end Printer

/-- The text of a value without white space. -/
def compact (value : Json) : String :=
  Printer.compact value

/-- The text of a value with two spaces of indentation for each level. -/
def indented (value : Json) : String :=
  Printer.indented 0 value

end Json

end SolidityModel
