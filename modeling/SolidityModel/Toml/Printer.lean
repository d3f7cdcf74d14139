import SolidityModel.Text.Digit

/-!
# Writing TOML strings

A string takes the first of these forms that can show it without escapes: quotes,
apostrophes, three quotes, three apostrophes.  If none can, it is written with
escapes, between three quotes if it holds line breaks and between single ones
otherwise.  A form with three delimiters begins on a new line if the string holds
line breaks.  A tab stands as it is between apostrophes and as an escape between
quotes, but does not keep a string from either.
-/

namespace SolidityModel

namespace Toml

namespace Printer

/-- The characters that only an escape can show: the controls, with the exception
of line breaks and tabs. -/
def needsEscape (char : Char) : Bool :=
  (char.toNat < 0x20 && char ≠ '\n' && char ≠ '\t') || char.toNat = 0x7F

/-- The greatest number of times that a mark stands in a row, `run` times before
the text. -/
def longestRun (mark : Char) (run : Nat) : List Char → Nat
  | [] => run
  | char :: rest =>
      if char = mark then longestRun mark (run + 1) rest
      else max run (longestRun mark 0 rest)

/-- The forms of a string. -/
inductive Form where
  | quotes
  | apostrophes
  | longQuotes
  | longApostrophes
  deriving DecidableEq

/-- The first form that shows a string without escapes, or else one with quotes. -/
def formOf (chars : List Char) : Form :=
  let controls := chars.any needsEscape
  let breaks := chars.contains '\n'
  let backslashes := chars.contains '\\'
  let quotes := longestRun '"' 0 chars
  let apostrophes := longestRun '\'' 0 chars
  if !controls && !backslashes && quotes = 0 && !breaks then .quotes
  else if !controls && apostrophes = 0 && !breaks then .apostrophes
  else if !controls && !backslashes && quotes < 3 then .longQuotes
  else if !controls && apostrophes < 3 then .longApostrophes
  else if breaks then .longQuotes
  else .quotes

/-- The escape of a character by its code point, in four digits. -/
def codeEscape (char : Char) : List Char :=
  let code := char.toNat
  ['\\', 'u', Text.upperHexDigit (code / 4096 % 16), Text.upperHexDigit (code / 256 % 16),
    Text.upperHexDigit (code / 16 % 16), Text.upperHexDigit (code % 16)]

/-- The written form of a character that is no quote. -/
def escape (char : Char) : List Char :=
  if char = '\x08' then ['\\', 'b']
  else if char = '\t' then ['\\', 't']
  else if char = '\x0c' then ['\\', 'f']
  else if char = '\r' then ['\\', 'r']
  else if char = '\\' then ['\\', '\\']
  else if needsEscape char then codeEscape char
  else [char]

/-- A text with escapes, in which up to `most` quotes may stand in a row as they
are, `run` of them before the text. -/
def escapeAll (most run : Nat) : List Char → List Char
  | [] => []
  | char :: rest =>
      if char = '"' then
        if run < most then '"' :: escapeAll most (run + 1) rest
        else '\\' :: '"' :: escapeAll most 0 rest
      else escape char ++ escapeAll most 0 rest

/-- The line break after three opening delimiters. -/
def openingBreak (chars : List Char) : List Char :=
  if chars.contains '\n' then ['\n'] else []

/-- Three quotes. -/
def threeQuotes : List Char := ['"', '"', '"']

/-- Three apostrophes. -/
def threeApostrophes : List Char := ['\'', '\'', '\'']

/-- A string in a form. -/
def written (chars : List Char) : Form → List Char
  | .quotes => '"' :: escapeAll 0 0 chars ++ ['"']
  | .apostrophes => '\'' :: chars ++ ['\'']
  | .longQuotes => threeQuotes ++ openingBreak chars ++ escapeAll 2 0 chars ++ threeQuotes
  | .longApostrophes => threeApostrophes ++ openingBreak chars ++ chars ++ threeApostrophes

end Printer

/-- The written form of a string. -/
def writeString (text : String) : String :=
  String.ofList (Printer.written text.toList (Printer.formOf text.toList))

end Toml

end SolidityModel
