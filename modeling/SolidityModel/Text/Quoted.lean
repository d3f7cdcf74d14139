import SolidityModel.Text.Visible

/-!
# Names between quotes

Messages show names between double quotes, with whatever would be hard to see
written out: a quote and a backslash take a backslash, the usual controls have
their letters, and every other character without a visible form is given by its
code point.  Lists stand in brackets, their entries separated by a comma and a
space.
-/

namespace SolidityModel

namespace Text

/-- The digits of a number in base sixteen, in lower case. -/
def hexText (value : Nat) : String :=
  String.ofList (Nat.toDigits 16 value)

/-- The written form of one character between quotes. -/
def quoteChar (char : Char) : String :=
  if char = '"' then "\\\""
  else if char = '\\' then "\\\\"
  else if char = '\x00' then "\\0"
  else if char = '\t' then "\\t"
  else if char = '\n' then "\\n"
  else if char = '\r' then "\\r"
  else if isVisible char then char.toString
  else "\\u\x7b" ++ hexText char.toNat ++ "\x7d"

/-- A name between quotes. -/
def quote (name : String) : String :=
  "\"" ++ String.join (name.toList.map quoteChar) ++ "\""

/-- Entries between brackets. -/
def bracketed (entries : List String) : String :=
  "[" ++ String.intercalate ", " entries ++ "]"

/-- A list of lists of names, with every name between quotes. -/
def quoteLists (lists : List (List String)) : String :=
  bracketed (lists.map fun names => bracketed (names.map quote))

end Text

end SolidityModel
