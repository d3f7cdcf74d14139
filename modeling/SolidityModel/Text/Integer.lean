import SolidityModel.Text.Digit

/-!
# Integers of bounded size

A decimal integer is an optional sign and at least one digit.  Its digits are
read from the left, and the first one that is no digit, or that carries the
number past its bound, decides what is wrong.
-/

namespace SolidityModel

namespace Text

/-- What is wrong with the text of an integer. -/
inductive IntegerFault where
  | empty
  | invalidDigit
  | tooLarge
  | tooSmall
  deriving DecidableEq, Inhabited

/-- The wording of a fault. -/
def IntegerFault.message : IntegerFault → String
  | empty => "cannot parse integer from empty string"
  | invalidDigit => "invalid digit found in string"
  | tooLarge => "number too large to fit in target type"
  | tooSmall => "number too small to fit in target type"

/-- Read digits after those that wrote `value`, up to a largest number; `beyond`
is the fault of a greater one. -/
def digitsFrom (largest : Nat) (beyond : IntegerFault) (value : Nat) :
    List Char → Except IntegerFault Nat
  | [] => .ok value
  | char :: rest =>
      match digitValue? 10 char with
      | none => .error .invalidDigit
      | some digit =>
          if largest < value * 10 + digit then .error beyond
          else digitsFrom largest beyond (value * 10 + digit) rest

/-- The number of values that 32 bits hold. -/
def word32Count : Nat := 4294967296

/-- The number of values that 64 bits hold. -/
def word64Count : Nat := 18446744073709551616

/-- The magnitude of the least integer of 64 bits, one of them the sign. -/
def int64Magnitude : Nat := 9223372036854775808

/-- Read an integer of 64 bits, one of them the sign. -/
def int64 : List Char → Except IntegerFault Int
  | [] => .error .empty
  | ['+'] => .error .invalidDigit
  | ['-'] => .error .invalidDigit
  | '-' :: digits => (digitsFrom int64Magnitude .tooSmall 0 digits).map fun value => -(value : Int)
  | '+' :: digits => (digitsFrom (int64Magnitude - 1) .tooLarge 0 digits).map Int.ofNat
  | digits => (digitsFrom (int64Magnitude - 1) .tooLarge 0 digits).map Int.ofNat

/-- The number that a non-empty run of digits writes, if it fits into 64 bits. -/
def word64? : List Char → Option Nat
  | [] => none
  | digits => (digitsFrom (word64Count - 1) .tooLarge 0 digits).toOption

/-- The parts of a text between the occurrences of a separator. -/
def splitAt (separator : Char) : List Char → List (List Char)
  | [] => [[]]
  | char :: rest =>
      if char = separator then [] :: splitAt separator rest
      else
        match splitAt separator rest with
        | [] => [[char]]
        | part :: parts => (char :: part) :: parts

end Text

end SolidityModel
