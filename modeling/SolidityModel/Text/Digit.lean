/-!
# Digits

The digits of every base up to sixteen; beyond nine they are letters of either
case.
-/

namespace SolidityModel

namespace Text

/-- The value of a digit or letter in base sixteen. -/
def hexValue? (char : Char) : Option Nat :=
  if '0' ≤ char ∧ char ≤ '9' then some (char.toNat - '0'.toNat)
  else if 'a' ≤ char ∧ char ≤ 'f' then some (char.toNat - 'a'.toNat + 10)
  else if 'A' ≤ char ∧ char ≤ 'F' then some (char.toNat - 'A'.toNat + 10)
  else none

/-- The value of a digit of a base up to sixteen. -/
def digitValue? (base : Nat) (char : Char) : Option Nat :=
  (hexValue? char).filter (· < base)

/-- Whether a character is a digit of a base up to sixteen. -/
def isDigit (base : Nat) (char : Char) : Bool :=
  (digitValue? base char).isSome

/-- The number that digits of a base write. -/
def numberOf (base : Nat) (digits : List Char) : Nat :=
  digits.foldl (fun value digit => value * base + (digitValue? base digit).getD 0) 0

/-- The digit of a number below sixteen, in lower case. -/
def lowerHexDigit (value : Nat) : Char :=
  if value < 10 then Char.ofNat ('0'.toNat + value) else Char.ofNat ('a'.toNat + (value - 10))

/-- The digit of a number below sixteen, in upper case. -/
def upperHexDigit (value : Nat) : Char :=
  if value < 10 then Char.ofNat ('0'.toNat + value) else Char.ofNat ('A'.toNat + (value - 10))

end Text

end SolidityModel
