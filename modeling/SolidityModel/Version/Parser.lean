import SolidityModel.Text.Integer
import SolidityModel.Version.Requirement

/-!
# Reading version requirements

A requirement is either a single wildcard, or up to 32 comparators with commas
between them.  A comparator is an optional operator and one to three numbers; a
wildcard may stand for the minor and for the patch number.  Only a patch number
can be followed by a pre-release part and by build metadata, which count for
nothing.
-/

namespace SolidityModel

namespace VersionReq

/-- The text after its leading spaces. -/
def skipSpaces (input : List Char) : List Char :=
  input.dropWhile (· = ' ')

/-- The text after a wildcard. -/
def afterWildcard? : List Char → Option (List Char)
  | '*' :: rest => some rest
  | 'x' :: rest => some rest
  | 'X' :: rest => some rest
  | _ => none

/-- The operator at the start of a text, if there is one. -/
def readOp : List Char → Option VersionOp × List Char
  | '=' :: rest => (some .exact, rest)
  | '>' :: '=' :: rest => (some .greaterEq, rest)
  | '>' :: rest => (some .greater, rest)
  | '<' :: '=' :: rest => (some .lessEq, rest)
  | '<' :: rest => (some .less, rest)
  | '~' :: rest => (some .tilde, rest)
  | '^' :: rest => (some .caret, rest)
  | rest => (none, rest)

/-- A number of at most 64 bits without leading zeros. -/
def readNumber? (input : List Char) : Option (Nat × List Char) :=
  let digits := input.takeWhile Char.isDigit
  let rest := input.dropWhile Char.isDigit
  if digits.isEmpty || (digits.head? = some '0' && 1 < digits.length)
      || Text.word64Count ≤ Text.numberOf 10 digits then none
  else some (Text.numberOf 10 digits, rest)

/-- What can stand in the place of the minor or the patch number: nothing, a
wildcard or a number. -/
inductive Place where
  | absent
  | wildcard
  | number (value : Nat)
  deriving DecidableEq

/-- The number of a place. -/
def Place.number? : Place → Option Nat
  | number value => some value
  | _ => none

/-- The place after a dot, if a dot follows. -/
def readPlace? : List Char → Option (Place × List Char)
  | '.' :: rest =>
      match afterWildcard? rest with
      | some rest => some (.wildcard, rest)
      | none => (readNumber? rest).map fun (value, rest) => (.number value, rest)
  | rest => some (.absent, rest)

/-- Whether a character can stand in a pre-release part or in build metadata. -/
def isIdentifierChar (char : Char) : Bool :=
  char.isAlphanum || char = '-'

/-- Whether a segment of a pre-release part is a number with a leading zero. -/
def hasLeadingZero (segment : List Char) : Bool :=
  segment.all Char.isDigit && segment.head? = some '0' && 1 < segment.length

/-- Whether the characters make segments that are not empty, with dots between
them, and that all pass a test. -/
def segmentsPass (accept : List Char → Bool) (segment : List Char) : List Char → Bool
  | [] => !segment.isEmpty && accept segment
  | char :: rest =>
      if char = '.' then !segment.isEmpty && accept segment && segmentsPass accept [] rest
      else segmentsPass accept (segment ++ [char]) rest

/-- The dotted identifier after a mark, empty if the mark does not follow. -/
def readIdentifier? (mark : Char) (accept : List Char → Bool) :
    List Char → Option (List Char × List Char)
  | [] => some ([], [])
  | char :: rest =>
      if char = mark then
        let identifier := rest.takeWhile fun char => isIdentifierChar char || char = '.'
        if segmentsPass accept [] identifier then
          some (identifier, rest.dropWhile fun char => isIdentifierChar char || char = '.')
        else none
      else some ([], char :: rest)

/-- The pre-release part and the build metadata, for which a patch number has to
be given. -/
def readSuffix? (patch : Place) (input : List Char) : Option (List Char × List Char) :=
  match patch with
  | .number _ => do
      let (preRelease, rest) ← readIdentifier? '-' (fun segment => !hasLeadingZero segment) input
      let (_, rest) ← readIdentifier? '+' (fun _ => true) rest
      return (preRelease, rest)
  | _ => some ([], input)

/-- The operator of a comparator.  Without a sign it is a caret, unless a wildcard
stands in it. -/
def opOf (written : Option VersionOp) (minor patch : Place) : VersionOp :=
  match written with
  | some op => op
  | none => if minor = .wildcard ∨ patch = .wildcard then .wildcard else .caret

/-- One comparator, and what follows the spaces after it. -/
def readComparator? (input : List Char) : Option (Comparator × List Char) := do
  let (written, rest) := readOp input
  let (major, rest) ← readNumber? (skipSpaces rest)
  let (minor, rest) ← readPlace? rest
  let (patch, rest) ← readPlace? rest
  guard (¬(minor = .wildcard ∧ patch.number?.isSome))
  let (preRelease, rest) ← readSuffix? patch rest
  let comparator : Comparator := {
    op := opOf written minor patch
    major
    minor? := minor.number?
    patch? := patch.number?
    preRelease := String.ofList preRelease
  }
  return (comparator, skipSpaces rest)

/-- At least one and at most `most` comparators. -/
def readComparators? : (most : Nat) → List Char → Option (List Comparator)
  | 0, _ => none
  | most + 1, input =>
      match readComparator? input with
      | none => none
      | some (comparator, []) => some [comparator]
      | some (comparator, ',' :: rest) =>
          (readComparators? most (skipSpaces rest)).map (comparator :: ·)
      | some _ => none

/-- The requirement that characters write. -/
def ofChars? (chars : List Char) : Option VersionReq :=
  let input := skipSpaces chars
  match afterWildcard? input with
  | some rest => if (skipSpaces rest).isEmpty then some ⟨[]⟩ else none
  | none => (readComparators? 32 input).map VersionReq.mk

end VersionReq

end SolidityModel
