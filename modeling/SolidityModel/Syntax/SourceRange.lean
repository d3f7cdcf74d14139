import SolidityModel.Text.Integer

/-!
# Source ranges

A range of characters in a source file.  One tree shape writes it as
`start:length:file`, the other as the pair of its first and its last index, which
names no file.
-/

namespace SolidityModel

/-- A range of characters in a source file. -/
structure SourceRange where
  /-- The index of the first character. -/
  start : Nat
  /-- The number of characters. -/
  length : Nat
  /-- The index of the file. -/
  file : Nat
  deriving DecidableEq, Inhabited

namespace SourceRange

/-- The numbers that a range is written with, in their order. -/
inductive Part where
  | start
  | length
  | file
  deriving DecidableEq

/-- The word for a part in messages. -/
def Part.label : Part → String
  | start => "start"
  | length => "length"
  | file => "file"

/-- Why a text writes no range. -/
inductive ParseError where
  /-- The text ends before a part. -/
  | missing (part : Part)
  /-- A part is not an integer. -/
  | invalid (part : Part) (fault : Text.IntegerFault)
  /-- A part is negative: the compiler had no location. -/
  | unresolved
  /-- A part is too great. -/
  | outOfRange (part : Part)
  deriving DecidableEq

/-- The wording of an error in a text. -/
def ParseError.message (text : String) : ParseError → String
  | missing part => "missing " ++ part.label ++ " in source range `" ++ text ++ "`"
  | invalid part fault =>
      "invalid " ++ part.label ++ " in source range `" ++ text ++ "`: " ++ fault.message
  | unresolved => "unresolved source range `" ++ text ++ "`"
  | outOfRange part => part.label ++ " out of range in source range `" ++ text ++ "`"

/-- The number of a part, from what is left of the text at it. -/
def readPart (part : Part) : List (List Char) → Except ParseError (Int × List (List Char))
  | [] => .error (.missing part)
  | text :: rest =>
      match Text.int64 text with
      | .ok value => .ok (value, rest)
      | .error fault => .error (.invalid part fault)

/-- Read `start:length:file`.  What follows a further colon is ignored. -/
def parse (text : String) : Except ParseError SourceRange := do
  let (start, rest) ← readPart .start (Text.splitAt ':' text.toList)
  let (length, rest) ← readPart .length rest
  let (file, _) ← readPart .file rest
  if start < 0 ∨ length < 0 ∨ file < 0 then
    throw .unresolved
  else if Text.word32Count ≤ file then
    throw (.outOfRange .file)
  else
    return ⟨start.toNat, length.toNat, file.toNat⟩

/-- The range from a first to a last index, if the last is not before the first
and the length fits into 64 bits. -/
def ofInclusive? (first last : Nat) : Option SourceRange :=
  if last < first ∨ Text.word64Count ≤ last - first + 1 then none
  else some ⟨first, last - first + 1, 0⟩

end SourceRange

end SolidityModel
