import SolidityModel.Text.Digit

/-!
# TOML strings

A string stands between quotes or apostrophes, one of them or three.  Quotes allow
escapes, apostrophes do not; three of either allow line breaks, of which one right
after the opening is no part of the string.
-/

namespace SolidityModel

namespace Toml

/-- Space and tab may stand between the parts of a line. -/
def isBlank (char : Char) : Bool :=
  char = ' ' || char = '\t'

/-- The text after its leading spaces and tabs. -/
def skipBlank (input : List Char) : List Char :=
  input.dropWhile isBlank

/-- The control characters, which no text may hold as they are.  The tab is not one
of them. -/
def isControl (char : Char) : Bool :=
  (char.toNat < 0x20 && char ≠ '\t') || char.toNat = 0x7F

/-- The number that the given count of hexadecimal digits writes after `value`. -/
def hexNumber? (value : Nat) : (count : Nat) → List Char → Option (Nat × List Char)
  | 0, rest => some (value, rest)
  | _ + 1, [] => none
  | count + 1, char :: rest =>
      match Text.hexValue? char with
      | some digit => hexNumber? (value * 16 + digit) count rest
      | none => none

/-- The character of a code point that is one. -/
def charOf? (code : Nat) : Option Char :=
  if code.isValidChar then some (Char.ofNat code) else none

/-- The character of a code point written with the given count of digits. -/
def codePoint? (count : Nat) (input : List Char) : Option (Char × List Char) :=
  match hexNumber? 0 count input with
  | some (code, rest) => (charOf? code).map fun char => (char, rest)
  | none => none

/-- The character of an escape, whose backslash has been read. -/
def escape? : List Char → Option (Char × List Char)
  | 'b' :: rest => some ('\x08', rest)
  | 't' :: rest => some ('\t', rest)
  | 'n' :: rest => some ('\n', rest)
  | 'e' :: rest => some ('\x1b', rest)
  | 'f' :: rest => some ('\x0c', rest)
  | 'r' :: rest => some ('\r', rest)
  | '"' :: rest => some ('"', rest)
  | '\\' :: rest => some ('\\', rest)
  | 'x' :: rest => codePoint? 2 rest
  | 'u' :: rest => codePoint? 4 rest
  | 'U' :: rest => codePoint? 8 rest
  | _ => none

theorem hexNumber?_length_le {value count code : Nat} {input rest : List Char}
    (read : hexNumber? value count input = some (code, rest)) :
    rest.length ≤ input.length := by
  induction count generalizing value input with
  | zero =>
      simp only [hexNumber?, Option.some.injEq, Prod.mk.injEq] at read
      exact Nat.le_of_eq (congrArg List.length read.2.symm)
  | succ count ih =>
      cases input with
      | nil => simp [hexNumber?] at read
      | cons char input =>
          rw [hexNumber?] at read
          split at read
          · exact Nat.le_succ_of_le (ih read)
          · simp at read

theorem codePoint?_length_le {count : Nat} {input rest : List Char} {char : Char}
    (read : codePoint? count input = some (char, rest)) : rest.length ≤ input.length := by
  rw [codePoint?] at read
  split at read
  next code after readCode =>
    obtain ⟨_, _, equal⟩ := Option.map_eq_some_iff.mp read
    obtain ⟨_, rfl⟩ := Prod.mk.inj equal
    exact hexNumber?_length_le readCode
  · simp at read

theorem escape?_shorter {input rest : List Char} {char : Char}
    (read : escape? input = some (char, rest)) : rest.length < input.length := by
  unfold escape? at read
  split at read
  all_goals first
    | (obtain ⟨_, rfl⟩ := read; simp)
    | (have bound := codePoint?_length_le read; simp only [List.length_cons]; omega)
    | simp at read

/-- Add a character to what has been read after it. -/
def prepend (char : Char) : Option (List Char × List Char) → Option (List Char × List Char)
  | some (chars, rest) => some (char :: chars, rest)
  | none => none

/-- The characters up to a closing quote. -/
def basicBody? : List Char → Option (List Char × List Char)
  | [] => none
  | '"' :: rest => some ([], rest)
  | '\\' :: rest =>
      match escaped : escape? rest with
      | none => none
      | some (char, after) =>
          have : after.length < rest.length := escape?_shorter escaped
          prepend char (basicBody? after)
  | char :: rest => if isControl char then none else prepend char (basicBody? rest)
termination_by input => input.length

/-- The characters up to a closing apostrophe. -/
def literalBody? : List Char → Option (List Char × List Char)
  | [] => none
  | '\'' :: rest => some ([], rest)
  | char :: rest => if isControl char then none else prepend char (literalBody? rest)

/-- The text after a line break at its start, if there is one. -/
def afterLineBreak? : List Char → Option (List Char)
  | '\n' :: rest => some rest
  | '\r' :: '\n' :: rest => some rest
  | _ => none

/-- The text after a line break at its start, or the whole of it. -/
def skipLineBreak (input : List Char) : List Char :=
  (afterLineBreak? input).getD input

/-- The text after its leading blanks and line breaks. -/
def skipSpace : List Char → List Char
  | '\r' :: '\n' :: rest => skipSpace rest
  | char :: rest => if isBlank char || char = '\n' then skipSpace rest else char :: rest
  | [] => []

/-- The text after a backslash that ends a line: the break and all white space
after it are no part of the string. -/
def afterContinuation? (input : List Char) : Option (List Char) :=
  (afterLineBreak? (skipBlank input)).map skipSpace

theorem skipBlank_length_le (input : List Char) :
    (skipBlank input).length ≤ input.length :=
  (List.dropWhile_sublist _).length_le

theorem skipSpace_length_le (input : List Char) :
    (skipSpace input).length ≤ input.length := by
  fun_induction skipSpace input with
  | case1 rest ih => simp only [List.length_cons]; omega
  | case2 char rest _ _ ih => simp only [List.length_cons]; omega
  | case3 => exact Nat.le_refl _
  | case4 => exact Nat.le_refl _

theorem afterLineBreak?_length_le {input rest : List Char}
    (read : afterLineBreak? input = some rest) : rest.length ≤ input.length := by
  unfold afterLineBreak? at read
  split at read
  · obtain rfl := Option.some.inj read
    simp
  · obtain rfl := Option.some.inj read
    simp only [List.length_cons]
    omega
  · simp at read

theorem afterContinuation?_length_le {input rest : List Char}
    (read : afterContinuation? input = some rest) : rest.length ≤ input.length := by
  obtain ⟨broken, readBreak, rfl⟩ := Option.map_eq_some_iff.mp read
  exact Nat.le_trans (skipSpace_length_le broken)
    (Nat.le_trans (afterLineBreak?_length_le readBreak) (skipBlank_length_le input))

/-- The characters up to three closing quotes.  Up to two more may stand right
before them and belong to the string. -/
def longBasicBody? : List Char → Option (List Char × List Char)
  | '"' :: '"' :: '"' :: '"' :: '"' :: rest => some (['"', '"'], rest)
  | '"' :: '"' :: '"' :: '"' :: rest => some (['"'], rest)
  | '"' :: '"' :: '"' :: rest => some ([], rest)
  | '\\' :: rest =>
      match escaped : escape? rest with
      | some (char, after) =>
          have : after.length < rest.length := escape?_shorter escaped
          prepend char (longBasicBody? after)
      | none =>
          match continued : afterContinuation? rest with
          | some after =>
              have : after.length ≤ rest.length := afterContinuation?_length_le continued
              longBasicBody? after
          | none => none
  | '\r' :: '\n' :: rest => prepend '\r' (prepend '\n' (longBasicBody? rest))
  | char :: rest =>
      if isControl char && char ≠ '\n' then none else prepend char (longBasicBody? rest)
  | [] => none
termination_by input => input.length

/-- The characters up to three closing apostrophes, with up to two more right
before them. -/
def longLiteralBody? : List Char → Option (List Char × List Char)
  | '\'' :: '\'' :: '\'' :: '\'' :: '\'' :: rest => some (['\'', '\''], rest)
  | '\'' :: '\'' :: '\'' :: '\'' :: rest => some (['\''], rest)
  | '\'' :: '\'' :: '\'' :: rest => some ([], rest)
  | '\r' :: '\n' :: rest => prepend '\r' (prepend '\n' (longLiteralBody? rest))
  | char :: rest =>
      if isControl char && char ≠ '\n' then none else prepend char (longLiteralBody? rest)
  | [] => none

/-- The characters of a string in any of the four forms. -/
def stringChars? : List Char → Option (List Char × List Char)
  | '"' :: '"' :: '"' :: rest => longBasicBody? (skipLineBreak rest)
  | '"' :: rest => basicBody? rest
  | '\'' :: '\'' :: '\'' :: rest => longLiteralBody? (skipLineBreak rest)
  | '\'' :: rest => literalBody? rest
  | _ => none

end Toml

end SolidityModel
