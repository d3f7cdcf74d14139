import SolidityModel.Text.Digit
import SolidityModel.Toml.Value

/-!
# Bare scalars

Truth values, numbers and dates are written without quotes, so one run of
characters decides which of them it is.  Integers may have up to 128 bits, and a
floating-point number must not be too great for a finite one of 64 bits.
-/

namespace SolidityModel

namespace Toml

/-- Digits in groups, with a single underscore between two groups, and without
these underscores. -/
def groupedDigits? (isDigit : Char → Bool) : List Char → Option (List Char)
  | [] => none
  | [char] => if isDigit char then some [char] else none
  | char :: '_' :: rest =>
      if isDigit char then (groupedDigits? isDigit rest).map (char :: ·) else none
  | char :: rest =>
      if isDigit char then (groupedDigits? isDigit rest).map (char :: ·) else none

/-- A sign, if there is one, and what follows it. -/
def splitSign : List Char → Bool × List Char
  | '-' :: rest => (true, rest)
  | '+' :: rest => (false, rest)
  | rest => (false, rest)

/-- The whole part of a decimal number, which has no leading zeros. -/
def wholeDigits? (text : List Char) : Option (List Char) :=
  (groupedDigits? (Text.isDigit 10) text).filter fun digits =>
    digits.head? ≠ some '0' || digits.length = 1

/-- The integer of a magnitude, if it has at most 128 bits, one of them being the
sign of a negative one. -/
def boundedInteger? (negative : Bool) (magnitude : Nat) : Option Value :=
  if negative then
    if magnitude ≤ Nat.pow 2 127 then some (.integer (-(magnitude : Int))) else none
  else if magnitude < Nat.pow 2 128 then some (.integer magnitude) else none

/-- An integer.  Other bases than ten have a mark instead of a sign. -/
def integer? (text : List Char) : Option Value :=
  let marked (base : Nat) (digits : List Char) : Option Value :=
    (groupedDigits? (Text.isDigit base) digits).bind fun digits =>
      boundedInteger? false (Text.numberOf base digits)
  match text with
  | '0' :: 'x' :: digits => marked 16 digits
  | '0' :: 'o' :: digits => marked 8 digits
  | '0' :: 'b' :: digits => marked 2 digits
  | text =>
      let (negative, magnitude) := splitSign text
      (wholeDigits? magnitude).bind fun digits =>
        boundedInteger? negative (Text.numberOf 10 digits)

/-- Whether `digits · 10 ^ exponent` rounds to a finite number of 64 bits, that is,
lies below `(2 ^ 54 - 1) · 2 ^ 970`. -/
def isFinite (digits : List Char) (exponent : Int) : Bool :=
  let significant := digits.dropWhile (· = '0')
  let magnitude : Int := significant.length + exponent
  if significant.isEmpty || magnitude < 309 then true
  else if 309 < magnitude then false
  else
    let bound := (Nat.pow 2 54 - 1) * Nat.pow 2 970
    if exponent < 0 then Text.numberOf 10 significant < bound * Nat.pow 10 exponent.natAbs
    else Text.numberOf 10 significant * Nat.pow 10 exponent.natAbs < bound

/-- The exponent after its mark. -/
def exponentValue? (text : List Char) : Option Int :=
  let (negative, magnitude) := splitSign text
  (groupedDigits? (Text.isDigit 10) magnitude).map fun digits =>
    if negative then -(Text.numberOf 10 digits : Int) else (Text.numberOf 10 digits : Int)

/-- Whether a text is a decimal number with a fraction or an exponent, and not too
great. -/
def isFloatMagnitude (text : List Char) : Bool :=
  let isMark (char : Char) : Bool := char = 'e' || char = 'E'
  let mantissa := text.takeWhile fun char => !isMark char
  let whole := mantissa.takeWhile (· ≠ '.')
  let exponent? : Option Int :=
    match text.dropWhile fun char => !isMark char with
    | [] => some 0
    | _ :: rest => exponentValue? rest
  let fraction? : Option (List Char) :=
    match mantissa.dropWhile (· ≠ '.') with
    | [] => some []
    | _ :: rest => groupedDigits? (Text.isDigit 10) rest
  match wholeDigits? whole, fraction?, exponent? with
  | some whole, some fraction, some exponent =>
      isFinite (whole ++ fraction) (exponent - fraction.length)
  | _, _, _ => false

/-- A floating-point number: a decimal one, an infinity or no number at all. -/
def float? (text : List Char) : Option Value :=
  let magnitude := (splitSign text).2
  let special := magnitude = ['i', 'n', 'f'] || magnitude = ['n', 'a', 'n']
  let decimal := text.any (fun char => char = '.' || char = 'e' || char = 'E')
    && isFloatMagnitude magnitude
  if special || decimal then some (.float (String.ofList text)) else none

/-! ## Dates and times -/

/-- A number of exactly as many digits as asked for. -/
def fixedNumber? : (width : Nat) → List Char → Option (Nat × List Char)
  | width, text =>
      let digits := text.take width
      if digits.length = width ∧ digits.all (Text.isDigit 10) then
        some (Text.numberOf 10 digits, text.drop width)
      else none

/-- A number of exactly two digits within bounds. -/
def twoDigits? (least most : Nat) (text : List Char) : Option (Nat × List Char) :=
  (fixedNumber? 2 text).filter fun (value, _) => least ≤ value && value ≤ most

/-- The text after a character that has to come next. -/
def after? (expected : Char) : List Char → Option (List Char)
  | [] => none
  | char :: rest => if char = expected then some rest else none

/-- Whether a year has a day more. -/
def isLeapYear (year : Nat) : Bool :=
  year % 4 = 0 && (year % 100 ≠ 0 || year % 400 = 0)

/-- The number of days in a month. -/
def daysInMonth (year month : Nat) : Nat :=
  if month = 2 then if isLeapYear year then 29 else 28
  else if [4, 6, 9, 11].contains month then 30
  else 31

/-- The text after a date. -/
def afterDate? (text : List Char) : Option (List Char) := do
  let (year, rest) ← fixedNumber? 4 text
  let rest ← after? '-' rest
  let (month, rest) ← twoDigits? 1 12 rest
  let rest ← after? '-' rest
  let (_, rest) ← twoDigits? 1 (daysInMonth year month) rest
  return rest

/-- The text after a fraction of a second, if there is one. -/
def afterFraction? : List Char → Option (List Char)
  | '.' :: rest =>
      if (rest.takeWhile (Text.isDigit 10)).isEmpty then none
      else some (rest.dropWhile (Text.isDigit 10))
  | rest => some rest

/-- The text after the seconds of a time, if there are any.  A leap second is the
sixtieth. -/
def afterSeconds? : List Char → Option (List Char)
  | ':' :: rest => (twoDigits? 0 60 rest).bind fun (_, rest) => afterFraction? rest
  | rest => some rest

/-- The text after hours and minutes. -/
def afterMinutes? (text : List Char) : Option (List Char) := do
  let (_, rest) ← twoDigits? 0 23 text
  let rest ← after? ':' rest
  let (_, rest) ← twoDigits? 0 59 rest
  return rest

/-- The text after a time of day. -/
def afterTime? (text : List Char) : Option (List Char) :=
  (afterMinutes? text).bind afterSeconds?

/-- The text after the offset of a time, if there is one. -/
def afterOffset? : List Char → Option (List Char)
  | 'Z' :: rest => some rest
  | 'z' :: rest => some rest
  | '+' :: rest => afterMinutes? rest
  | '-' :: rest => afterMinutes? rest
  | rest => some rest

/-- The text after a time that follows a date, and after its offset. -/
def afterDateTime? : List Char → Option (List Char)
  | mark :: rest =>
      if mark = 'T' ∨ mark = 't' ∨ mark = ' ' then (afterTime? rest).bind afterOffset?
      else none
  | [] => some []

/-- A date, a time, or both with or without an offset. -/
def dateTime? (text : List Char) : Option Value :=
  let rest? := ((afterDate? text).bind afterDateTime?).or (afterTime? text)
  if rest? = some [] then some (.dateTime (String.ofList text)) else none

/-- Whether a text is a date without a time. -/
def isDate (text : List Char) : Bool :=
  afterDate? text = some []

/-- The value of a run of characters without quotes. -/
def scalar? (text : List Char) : Option Value :=
  if text = ['t', 'r', 'u', 'e'] then some (.boolean true)
  else if text = ['f', 'a', 'l', 's', 'e'] then some (.boolean false)
  else ((integer? text).or (float? text)).or (dateTime? text)

end Toml

end SolidityModel
