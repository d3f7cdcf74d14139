import SolidityModel.Text.Blank
import SolidityModel.Version.Parser

/-!
# Version pragmas

A pragma writes its comparators one after the other, with white space between
them or with none.  A comparator ends where an operator follows a version, and
one without an operator means just that version.
-/

namespace SolidityModel

namespace VersionReq

/-- Whether a character belongs to an operator. -/
def isOperatorChar (char : Char) : Bool :=
  char = '<' || char = '>' || char = '=' || char = '^' || char = '~'

/-- Cut a text into comparators.  `current` holds the characters of the comparator
that is being read, and `inVersion` tells whether its version has begun. -/
def cutComparators (current : List Char) (inVersion : Bool) : List Char → List (List Char)
  | [] => if current.isEmpty then [] else [current]
  | char :: rest =>
      if isOperatorChar char then
        if inVersion then current :: cutComparators [char] false rest
        else cutComparators (current ++ [char]) false rest
      else cutComparators (current ++ [char]) true rest

/-- A comparator with its operator, which is equality if none is written. -/
def withOperator (comparator : List Char) : List Char :=
  match comparator with
  | first :: rest => if first.isDigit then '=' :: first :: rest else first :: rest
  | [] => []

/-- The requirement of a pragma in the notation with commas. -/
def normalized (pragma : String) : List Char :=
  let chars := pragma.toList.filter fun char => !Text.isBlank char
  [',', ' '].intercalate ((cutComparators [] false chars).map withOperator)

/-- The requirement of a pragma, if it can be understood. -/
def ofPragma? (pragma : String) : Option VersionReq :=
  ofChars? (normalized pragma)

end VersionReq

end SolidityModel
