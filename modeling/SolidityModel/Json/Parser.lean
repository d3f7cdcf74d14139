import SolidityModel.Json
import SolidityModel.Text.Digit

/-!
# Reading JSON text

The reader is strict: it accepts exactly one value between optional white space,
and neither comments, trailing commas, raw control characters nor unpaired
surrogate escapes.  Arrays and objects may nest only as deep as the caller
allows.  Of the fields of one name in an object the last one counts.

Numbers keep their digits.  Only the exponent has one spelling: its mark is a
lower-case `e`, and a sign always follows it.  An object whose first field has the
name `Json.numberKey` stands for the number that the field writes as a string.
-/

namespace SolidityModel

namespace Json

/-- The name of the only field of an object that stands for a number. -/
def numberKey : String := "$serde_json::private::Number"

namespace Parser

/-- Space, tab, line feed and carriage return may stand between two tokens. -/
def isSpace (char : Char) : Bool :=
  char = ' ' || char = '\t' || char = '\n' || char = '\r'

/-- The text after its leading white space. -/
def skipSpace (input : List Char) : List Char :=
  input.dropWhile isSpace

/-- The number that four hexadecimal digits write. -/
def codeUnit? : List Char → Option (Nat × List Char)
  | first :: second :: third :: fourth :: rest => do
      let first ← Text.hexValue? first
      let second ← Text.hexValue? second
      let third ← Text.hexValue? third
      let fourth ← Text.hexValue? fourth
      return (((first * 16 + second) * 16 + third) * 16 + fourth, rest)
  | _ => none

/-- The character of a numeric escape, whose four digits are read first.  A
character beyond the first plane is written as two escapes in a row, a high and a
low surrogate. -/
def unicodeEscape? (input : List Char) : Option (Char × List Char) :=
  match codeUnit? input with
  | none => none
  | some (unit, rest) =>
      if 0xD800 ≤ unit ∧ unit ≤ 0xDBFF then
        match rest with
        | '\\' :: 'u' :: rest =>
            match codeUnit? rest with
            | none => none
            | some (low, rest) =>
                if 0xDC00 ≤ low ∧ low ≤ 0xDFFF then
                  some (Char.ofNat (0x10000 + (unit - 0xD800) * 0x400 + (low - 0xDC00)), rest)
                else none
        | _ => none
      else if 0xDC00 ≤ unit ∧ unit ≤ 0xDFFF then none
      else some (Char.ofNat unit, rest)

/-- The character of an escape, whose backslash has been read. -/
def escape? : List Char → Option (Char × List Char)
  | '"' :: rest => some ('"', rest)
  | '\\' :: rest => some ('\\', rest)
  | '/' :: rest => some ('/', rest)
  | 'b' :: rest => some ('\x08', rest)
  | 'f' :: rest => some ('\x0c', rest)
  | 'n' :: rest => some ('\n', rest)
  | 'r' :: rest => some ('\r', rest)
  | 't' :: rest => some ('\t', rest)
  | 'u' :: rest => unicodeEscape? rest
  | _ => none

theorem codeUnit?_shorter {input rest : List Char} {unit : Nat}
    (read : codeUnit? input = some (unit, rest)) : rest.length < input.length := by
  match input, read with
  | first :: second :: third :: fourth :: rest', read =>
      simp only [codeUnit?, Option.bind_eq_bind, Option.bind_eq_some_iff,
        Option.pure_def, Option.some.injEq, Prod.mk.injEq] at read
      obtain ⟨_, _, _, _, _, _, _, _, _, rfl⟩ := read
      simp only [List.length_cons]
      omega

theorem unicodeEscape?_shorter {input rest : List Char} {char : Char}
    (read : unicodeEscape? input = some (char, rest)) : rest.length < input.length := by
  unfold unicodeEscape? at read
  split at read
  · simp at read
  next unit after readUnit =>
    have shorter := codeUnit?_shorter readUnit
    split at read
    · split at read
      next after' =>
        split at read
        · simp at read
        next low after'' readLow =>
          have shorterLow := codeUnit?_shorter readLow
          split at read
          · simp only [Option.some.injEq, Prod.mk.injEq] at read
            obtain ⟨_, rfl⟩ := read
            simp only [List.length_cons] at shorter
            omega
          · simp at read
      · simp at read
    · split at read
      · simp at read
      · simp only [Option.some.injEq, Prod.mk.injEq] at read
        obtain ⟨_, rfl⟩ := read
        exact shorter

theorem escape?_shorter {input rest : List Char} {char : Char}
    (read : escape? input = some (char, rest)) : rest.length < input.length := by
  unfold escape? at read
  split at read
  all_goals first
    | (obtain ⟨_, rfl⟩ := read; simp)
    | (have shorter := unicodeEscape?_shorter read; simp only [List.length_cons]; omega)
    | simp at read

/-- The characters of a string, whose opening quote has been read. -/
def stringBody? : List Char → Option (List Char × List Char)
  | [] => none
  | '"' :: rest => some ([], rest)
  | '\\' :: rest =>
      match escaped : escape? rest with
      | none => none
      | some (char, after) =>
          have : after.length < rest.length := escape?_shorter escaped
          (stringBody? after).map fun (chars, rest) => (char :: chars, rest)
  | char :: rest =>
      if char.toNat < 0x20 then none
      else (stringBody? rest).map fun (chars, rest) => (char :: chars, rest)
termination_by input => input.length

/-- The digits at the start of a text, and what follows them. -/
def digits (input : List Char) : List Char × List Char :=
  (input.takeWhile Char.isDigit, input.dropWhile Char.isDigit)

/-- The whole part of a number: a single zero, or digits that begin with another
digit. -/
def wholePart? (input : List Char) : Option (List Char × List Char) :=
  match digits input with
  | ([], _) => none
  | ('0' :: more, _) => some (['0'], more ++ (digits input).2)
  | (whole, rest) => some (whole, rest)

/-- The fraction of a number, empty if no point follows. -/
def fraction? : List Char → Option (List Char × List Char)
  | '.' :: rest =>
      match digits rest with
      | ([], _) => none
      | (fraction, rest) => some ('.' :: fraction, rest)
  | rest => some ([], rest)

/-- The digits of an exponent after its sign. -/
def exponentDigits? (sign : Char) (input : List Char) : Option (List Char × List Char) :=
  match digits input with
  | ([], _) => none
  | (exponent, rest) => some ('e' :: sign :: exponent, rest)

/-- The exponent of a number, empty if there is none. -/
def exponent? : List Char → Option (List Char × List Char)
  | mark :: rest =>
      if mark = 'e' ∨ mark = 'E' then
        match rest with
        | '-' :: rest => exponentDigits? '-' rest
        | '+' :: rest => exponentDigits? '+' rest
        | rest => exponentDigits? '+' rest
      else some ([], mark :: rest)
  | [] => some ([], [])

/-- The text of a number without its sign. -/
def magnitude? (input : List Char) : Option (List Char × List Char) := do
  let (whole, rest) ← wholePart? input
  let (fraction, rest) ← fraction? rest
  let (exponent, rest) ← exponent? rest
  return (whole ++ fraction ++ exponent, rest)

/-- The text of a number. -/
def number? : List Char → Option (List Char × List Char)
  | '-' :: rest => (magnitude? rest).map fun (text, rest) => ('-' :: text, rest)
  | input => magnitude? input

/-- The items of a list after its opening bracket, up to the closing one.  Every
item takes at least one character, so a bound as long as the text is never
reached. -/
def itemsUntil? {α : Type} (close : Char) (item? : List Char → Option (α × List Char)) :
    (bound : Nat) → List Char → Option (List α × List Char)
  | 0, _ => none
  | bound + 1, input =>
      match item? input with
      | none => none
      | some (first, rest) =>
          match skipSpace rest with
          | ',' :: rest =>
              (itemsUntil? close item? bound rest).map fun (others, rest) =>
                (first :: others, rest)
          | next :: rest => if next = close then some ([first], rest) else none
          | [] => none

/-- A possibly empty list after its opening bracket. -/
def listUntil? {α : Type} (close : Char) (item? : List Char → Option (α × List Char))
    (bound : Nat) (input : List Char) : Option (List α × List Char) :=
  match skipSpace input with
  | next :: rest =>
      if next = close then some ([], rest) else itemsUntil? close item? bound (next :: rest)
  | [] => none

/-- A string, after white space. -/
def string? (input : List Char) : Option (String × List Char) :=
  match skipSpace input with
  | '"' :: rest => (stringBody? rest).map fun (chars, rest) => (String.ofList chars, rest)
  | _ => none

/-- A field of an object whose values are read by `value?`. -/
def field? (value? : List Char → Option (Json × List Char)) (input : List Char) :
    Option ((String × Json) × List Char) := do
  let (name, rest) ← string? input
  match skipSpace rest with
  | ':' :: rest =>
      let (value, rest) ← value? rest
      return ((name, value), rest)
  | _ => none

/-- Set a field, at its old place if there is one and at the end otherwise. -/
def setField (name : String) (value : Json) : List (String × Json) → List (String × Json)
  | [] => [(name, value)]
  | (other, kept) :: rest =>
      if name = other then (name, value) :: rest else (other, kept) :: setField name value rest

/-- The number that a text writes from its beginning to its end. -/
def wholeNumber? (text : String) : Option Json :=
  match number? text.toList with
  | some (digits, []) => some (.number (String.ofList digits))
  | _ => none

/-- The number that an object stands for, by its fields as written: exactly one,
with the text of a number. -/
def numberOfFields? : List (String × Json) → Option Json
  | [(_, .string text)] => wholeNumber? text
  | _ => none

/-- The value of a list of fields as written. -/
def objectOf? (fields : List (String × Json)) : Option Json :=
  if fields.head?.map Prod.fst = some numberKey then numberOfFields? fields
  else some (.object (fields.foldl (fun set entry => setField entry.1 entry.2 set) []))

/-- A value in which arrays and objects nest at most `depth` deep. -/
def value? (bound : Nat) : (depth : Nat) → List Char → Option (Json × List Char)
  | depth, input =>
      match skipSpace input with
      | 'n' :: 'u' :: 'l' :: 'l' :: rest => some (.null, rest)
      | 't' :: 'r' :: 'u' :: 'e' :: rest => some (.bool true, rest)
      | 'f' :: 'a' :: 'l' :: 's' :: 'e' :: rest => some (.bool false, rest)
      | '"' :: rest =>
          (stringBody? rest).map fun (chars, rest) => (.string (String.ofList chars), rest)
      | '[' :: rest =>
          match depth with
          | 0 => none
          | depth + 1 =>
              (listUntil? ']' (value? bound depth) bound rest).map fun (items, rest) =>
                (.array items, rest)
      | '\x7b' :: rest =>
          match depth with
          | 0 => none
          | depth + 1 =>
              (listUntil? '\x7d' (field? (value? bound depth)) bound rest).bind
                fun (fields, rest) => (objectOf? fields).map fun value => (value, rest)
      | rest =>
          (number? rest).map fun (text, rest) => (.number (String.ofList text), rest)

end Parser

/-- The value that a text writes, if arrays and objects nest at most `depth` deep
in it. -/
def parse? (depth : Nat) (text : String) : Option Json :=
  let input := text.toList
  match Parser.value? (input.length + 1) depth input with
  | some (value, rest) => if (Parser.skipSpace rest).isEmpty then some value else none
  | none => none

end Json

end SolidityModel
