/-!
# Version requirements

A requirement is a list of comparators that a version has to pass, all of them.
A comparator may leave out the patch number, or the minor number with it.
-/

namespace SolidityModel

/-- How a version is compared. -/
inductive VersionOp where
  | exact
  | greater
  | greaterEq
  | less
  | lessEq
  | tilde
  | caret
  /-- Any version that agrees with the numbers given. -/
  | wildcard
  deriving DecidableEq, Inhabited

/-- The sign of an operator; a wildcard has none. -/
def VersionOp.sign : VersionOp → String
  | exact => "="
  | greater => ">"
  | greaterEq => ">="
  | less => "<"
  | lessEq => "<="
  | tilde => "~"
  | caret => "^"
  | wildcard => ""

/-- One comparison with a possibly incomplete version. -/
structure Comparator where
  op : VersionOp
  major : Nat
  minor? : Option Nat
  patch? : Option Nat
  /-- The pre-release part, empty if there is none. -/
  preRelease : String
  deriving DecidableEq, Inhabited

namespace Comparator

/-- A number after its dot. -/
def dotted (number : Nat) : String :=
  "." ++ toString number

/-- The mark in the place of a missing number. -/
def missingMark : VersionOp → String
  | .wildcard => ".*"
  | _ => ""

/-- The comparator as it is shown. -/
def display (comparator : Comparator) : String :=
  comparator.op.sign ++ toString comparator.major ++
    match comparator.minor?, comparator.patch? with
    | none, _ => missingMark comparator.op
    | some minor, none => dotted minor ++ missingMark comparator.op
    | some minor, some patch =>
        dotted minor ++ dotted patch ++
          if comparator.preRelease.isEmpty then "" else "-" ++ comparator.preRelease

end Comparator

/-- A requirement on a version. -/
structure VersionReq where
  /-- The comparators to pass; without any, every version passes. -/
  comparators : List Comparator
  deriving DecidableEq, Inhabited

/-- The requirement as it is shown. -/
def VersionReq.display (requirement : VersionReq) : String :=
  if requirement.comparators.isEmpty then "*"
  else String.intercalate ", " (requirement.comparators.map Comparator.display)

end SolidityModel
