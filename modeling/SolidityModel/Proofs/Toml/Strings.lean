import Mathlib.Tactic.SplitIfs
import SolidityModel.Toml.Printer
import SolidityModel.Toml.Text

/-!
# Strings that are written and read back

A string is read back from the form that it is written in, whatever characters it
holds (`stringChars?_written`).  Each form has its own danger: escapes have to be undone,
a delimiter in the string must not close it, one right before the closing delimiters
belongs to the string, and a line break after the opening ones does not.
-/

namespace SolidityModel

open Toml.Printer

namespace Toml

/-! ## Single characters -/

theorem isControl_eq (char : Char) : isControl char = (needsEscape char || char = '\n') := by
  by_cases isBreak : char = '\n'
  · subst isBreak
    rfl
  · simp [isControl, needsEscape, isBreak]

theorem ne_carriageReturn_of_needsEscape {char : Char} (plain : needsEscape char = false) :
    char ≠ '\r' := by
  rintro rfl
  cases plain

theorem hexValue?_upperHexDigit {digit : Nat} (small : digit < 16) :
    Text.hexValue? (Text.upperHexDigit digit) = some digit :=
  (by decide : ∀ digit < 16, Text.hexValue? (Text.upperHexDigit digit) = some digit) digit small

theorem hexNumber?_upperHexDigit {digit : Nat} (small : digit < 16) (value count : Nat)
    (rest : List Char) :
    hexNumber? value (count + 1) (Text.upperHexDigit digit :: rest) =
      hexNumber? (value * 16 + digit) count rest := by
  rw [hexNumber?, hexValue?_upperHexDigit small]

theorem charOf?_toNat (char : Char) : charOf? char.toNat = some char := by
  rw [charOf?, Char.ofNat_toNat]
  exact if_pos char.valid

/-- Four digits are enough for a character below `2 ^ 16`. -/
theorem escape?_codeEscape {char : Char} (small : char.toNat < 65536) (rest : List Char) :
    escape? ((codeEscape char).tail ++ rest) = some (char, rest) := by
  have digit : ∀ number, number % 16 < 16 := fun number => Nat.mod_lt number (by decide)
  have number : (((0 * 16 + char.toNat / 4096 % 16) * 16 + char.toNat / 256 % 16) * 16 +
      char.toNat / 16 % 16) * 16 + char.toNat % 16 = char.toNat := by omega
  have read : hexNumber? 0 4 ((codeEscape char).tail.tail ++ rest) = some (char.toNat, rest) := by
    simp only [codeEscape, List.tail_cons, List.cons_append, List.nil_append]
    rw [hexNumber?_upperHexDigit (digit _), hexNumber?_upperHexDigit (digit _),
      hexNumber?_upperHexDigit (digit _), hexNumber?_upperHexDigit (digit _), number, hexNumber?]
  calc escape? ((codeEscape char).tail ++ rest)
      = codePoint? 4 ((codeEscape char).tail.tail ++ rest) := rfl
    _ = (charOf? char.toNat).map fun char => (char, rest) := by rw [codePoint?, read]
    _ = some (char, rest) := by rw [charOf?_toNat, Option.map_some]

theorem toNat_lt_of_needsEscape {char : Char} (control : needsEscape char = true) :
    char.toNat < 65536 := by
  simp [needsEscape] at control
  omega

/-- A character that is no quote is written as itself or as an escape. -/
theorem escape_eq_or (char : Char) :
    escape char = [char] ∧ needsEscape char = false ∧ char ≠ '\\' ∨
      ∃ code, escape char = '\\' :: code ∧
        ∀ rest, escape? (code ++ rest) = some (char, rest) := by
  rw [escape]
  split_ifs with backspace tab feed carriage backslash control
  · exact .inr ⟨['b'], rfl, fun rest => by rw [backspace]; rfl⟩
  · exact .inr ⟨['t'], rfl, fun rest => by rw [tab]; rfl⟩
  · exact .inr ⟨['f'], rfl, fun rest => by rw [feed]; rfl⟩
  · exact .inr ⟨['r'], rfl, fun rest => by rw [carriage]; rfl⟩
  · exact .inr ⟨['\\'], rfl, fun rest => by rw [backslash]; rfl⟩
  · exact .inr ⟨_, rfl, escape?_codeEscape (toNat_lt_of_needsEscape control)⟩
  · exact .inl ⟨rfl, by simpa using control, backslash⟩

/-- A text with escapes begins with no quote unless the string does, and with no line
break that is not one of the string. -/
theorem escapeAll_cons_eq {most run : Nat} {char : Char} (escaped : char = '"' → most ≤ run)
    (chars : List Char) :
    ∃ first more, escapeAll most run (char :: chars) = first :: more ∧ first ≠ '"' ∧
      first ≠ '\r' ∧ (first = '\n' → char = '\n') := by
  rw [escapeAll]
  by_cases isQuote : char = '"'
  · rw [if_pos isQuote, if_neg (Nat.not_lt.mpr (escaped isQuote))]
    exact ⟨_, _, rfl, by decide, by decide, nofun⟩
  · rw [if_neg isQuote]
    rcases escape_eq_or char with ⟨itself, plain, -⟩ | ⟨code, written, -⟩
    · rw [itself]
      exact ⟨_, _, rfl, isQuote, ne_carriageReturn_of_needsEscape plain, id⟩
    · rw [written]
      exact ⟨_, _, rfl, by decide, by decide, nofun⟩

/-! ## Between single delimiters -/

theorem basicBody?_escape {code rest : List Char} {char : Char}
    (read : escape? code = some (char, rest)) :
    basicBody? ('\\' :: code) = prepend char (basicBody? rest) := by
  rw [basicBody?]
  split <;> simp_all

theorem basicBody?_plain {char : Char} (rest : List Char) (plain : isControl char = false)
    (notQuote : char ≠ '"') (notEscape : char ≠ '\\') :
    basicBody? (char :: rest) = prepend char (basicBody? rest) := by
  rw [basicBody?]
  · simp [plain]
  · simpa using notQuote
  · simpa using notEscape

/-- A text in which every quote is an escape is read up to the quote that closes it. -/
theorem basicBody?_escapeAll (rest : List Char) {chars : List Char} (oneLine : '\n' ∉ chars) :
    basicBody? (escapeAll 0 0 chars ++ '"' :: rest) = some (chars, rest) := by
  induction chars with
  | nil => rw [escapeAll, List.nil_append, basicBody?]
  | cons char chars ih =>
      rw [List.mem_cons, not_or] at oneLine
      rw [escapeAll]
      by_cases isQuote : char = '"'
      · rw [if_pos isQuote, if_neg (Nat.lt_irrefl 0), List.cons_append, List.cons_append,
          basicBody?_escape rfl, ih oneLine.2, isQuote]
        rfl
      · rw [if_neg isQuote, List.append_assoc]
        rcases escape_eq_or char with ⟨itself, plain, notEscape⟩ | ⟨code, written, read⟩
        · have noControl : isControl char = false := by
            simp [isControl_eq, plain, Ne.symm oneLine.1]
          rw [itself, List.singleton_append, basicBody?_plain _ noControl isQuote notEscape,
            ih oneLine.2]
          rfl
        · rw [written, List.cons_append, basicBody?_escape (read _), ih oneLine.2]
          rfl

theorem literalBody?_append (rest : List Char) {chars : List Char}
    (plain : ∀ char ∈ chars, isControl char = false ∧ char ≠ '\'') :
    literalBody? (chars ++ '\'' :: rest) = some (chars, rest) := by
  induction chars with
  | nil => rw [List.nil_append, literalBody?]
  | cons char chars ih =>
      rcases List.forall_mem_cons.mp plain with ⟨⟨noControl, notApostrophe⟩, later⟩
      rw [List.cons_append, literalBody?, ih later]
      · simp [noControl, prepend]
      · simpa using notApostrophe

/-! ## Between three delimiters -/

theorem longBasicBody?_escape {code rest : List Char} {char : Char}
    (read : escape? code = some (char, rest)) :
    longBasicBody? ('\\' :: code) = prepend char (longBasicBody? rest) := by
  rw [longBasicBody?]
  split <;> simp_all

theorem longBasicBody?_plain {char : Char} {rest : List Char} (plain : needsEscape char = false)
    (notEscape : char ≠ '\\')
    (notClosed : char = '"' → ∀ after, rest ≠ '"' :: '"' :: after) :
    longBasicBody? (char :: rest) = prepend char (longBasicBody? rest) := by
  have notReturn := ne_carriageReturn_of_needsEscape plain
  rw [longBasicBody?]
  · simp [isControl_eq, plain]
  · exact fun after isQuote => notClosed isQuote _
  · exact fun after isQuote => notClosed isQuote _
  · exact fun after isQuote => notClosed isQuote _
  · exact notEscape
  · exact fun after isReturn => absurd isReturn notReturn

/-- Up to two quotes right before the closing ones belong to the string. -/
theorem longBasicBody?_close {quotes : List Char}
    (few : quotes = [] ∨ quotes = ['"'] ∨ quotes = ['"', '"']) (rest : List Char) :
    longBasicBody? (quotes ++ threeQuotes ++ '\n' :: rest) = some (quotes, '\n' :: rest) := by
  rcases few with rfl | rfl | rfl <;> simp [threeQuotes, longBasicBody?]

/-- Behind a quote, a text in which at most two quotes stand in a row as they are begins
with two more only at the end of the string. -/
theorem eq_nil_or_eq_quote {run : Nat} {chars rest after : List Char}
    (starts : escapeAll 2 (run + 1) chars ++ threeQuotes ++ '\n' :: rest = '"' :: '"' :: after) :
    chars = [] ∨ run = 0 ∧ chars = ['"'] := by
  rcases chars with _ | ⟨char, chars⟩
  · exact .inl rfl
  by_cases isRaw : char = '"' ∧ run = 0
  · rcases isRaw with ⟨rfl, rfl⟩
    rcases chars with _ | ⟨second, chars⟩
    · exact .inr ⟨rfl, rfl⟩
    · -- A third quote in a row is written as an escape.
      have escaped : second = '"' → 2 ≤ 2 := fun _ => Nat.le_refl 2
      rcases escapeAll_cons_eq escaped chars with ⟨first, more, written, notQuote, -⟩
      have raw : escapeAll 2 (0 + 1) ('"' :: second :: chars) =
          '"' :: escapeAll 2 2 (second :: chars) := rfl
      rw [raw, written] at starts
      exact absurd (List.cons.inj (List.cons.inj starts).2).1 notQuote
  · have escaped : char = '"' → 2 ≤ run + 1 := fun isQuote =>
      Nat.succ_le_succ (Nat.one_le_iff_ne_zero.mpr fun zero => isRaw ⟨isQuote, zero⟩)
    rcases escapeAll_cons_eq escaped chars with ⟨first, more, written, notQuote, -⟩
    rw [written] at starts
    exact absurd (List.cons.inj starts).1 notQuote

/-- A text in which at most two quotes stand in a row as they are is read up to the three
that close it. -/
theorem longBasicBody?_escapeAll (rest : List Char) {run : Nat} (chars : List Char) :
    longBasicBody? (escapeAll 2 run chars ++ threeQuotes ++ '\n' :: rest) =
      some (chars, '\n' :: rest) := by
  induction chars generalizing run with
  | nil => exact longBasicBody?_close (.inl rfl) rest
  | cons char chars ih =>
      rw [escapeAll]
      by_cases isQuote : char = '"'
      · rw [if_pos isQuote, isQuote]
        by_cases few : run < 2
        · rw [if_pos few]
          by_cases last : chars = []
          · rw [last]
            exact longBasicBody?_close (.inr (.inl rfl)) rest
          by_cases lastTwo : run = 0 ∧ chars = ['"']
          · rw [lastTwo.1, lastTwo.2]
            exact longBasicBody?_close (.inr (.inr rfl)) rest
          · rw [List.cons_append, List.cons_append, longBasicBody?_plain rfl (by decide), ih]
            · rfl
            · intro _ after starts
              exact (eq_nil_or_eq_quote starts).elim last lastTwo
        · rw [if_neg few, List.cons_append, List.cons_append, List.cons_append, List.cons_append,
            longBasicBody?_escape rfl, ih]
          rfl
      · rw [if_neg isQuote, List.append_assoc, List.append_assoc,
          ← List.append_assoc (escapeAll _ _ _)]
        rcases escape_eq_or char with ⟨itself, plain, notEscape⟩ | ⟨code, written, read⟩
        · rw [itself, List.singleton_append, longBasicBody?_plain plain notEscape, ih]
          · rfl
          · exact fun same => absurd same isQuote
        · rw [written, List.cons_append, longBasicBody?_escape (read _), ih]
          rfl

theorem le_longestRun (mark : Char) (run : Nat) (chars : List Char) :
    run ≤ longestRun mark run chars := by
  induction chars generalizing run with
  | nil => exact Nat.le_refl run
  | cons char chars ih =>
      rw [longestRun]
      split
      · exact Nat.le_of_succ_le (ih (run + 1))
      · exact Nat.le_max_left run _

theorem not_mem_of_longestRun_eq_zero {mark : Char} {chars : List Char}
    (none : longestRun mark 0 chars = 0) : mark ∉ chars := by
  induction chars with
  | nil => exact List.not_mem_nil
  | cons char chars ih =>
      rw [longestRun] at none
      split at none
      · have counted := le_longestRun mark (0 + 1) chars
        omega
      · next other =>
          rw [List.mem_cons, not_or]
          exact ⟨Ne.symm other, ih (by omega)⟩

theorem longLiteralBody?_plain {char : Char} {rest : List Char}
    (plain : needsEscape char = false)
    (notClosed : char = '\'' → ∀ after, rest ≠ '\'' :: '\'' :: after) :
    longLiteralBody? (char :: rest) = prepend char (longLiteralBody? rest) := by
  have notReturn := ne_carriageReturn_of_needsEscape plain
  rw [longLiteralBody?]
  · simp [isControl_eq, plain]
  · exact fun after isApostrophe => notClosed isApostrophe _
  · exact fun after isApostrophe => notClosed isApostrophe _
  · exact fun after isApostrophe => notClosed isApostrophe _
  · exact fun after isReturn => absurd isReturn notReturn

/-- Up to two apostrophes right before the closing ones belong to the string. -/
theorem longLiteralBody?_close {marks : List Char}
    (few : marks = [] ∨ marks = ['\''] ∨ marks = ['\'', '\'']) (rest : List Char) :
    longLiteralBody? (marks ++ threeApostrophes ++ '\n' :: rest) =
      some (marks, '\n' :: rest) := by
  rcases few with rfl | rfl | rfl <;> simp [threeApostrophes, longLiteralBody?]

/-- Behind an apostrophe, a text with at most two in a row begins with two more only at
the end of the string. -/
theorem eq_nil_or_eq_apostrophe {run : Nat} {chars rest after : List Char}
    (few : longestRun '\'' (run + 1) chars < 3)
    (starts : chars ++ threeApostrophes ++ '\n' :: rest = '\'' :: '\'' :: after) :
    chars = [] ∨ run = 0 ∧ chars = ['\''] := by
  rcases chars with _ | ⟨first, _ | ⟨second, chars⟩⟩
  · exact .inl rfl
  · rcases List.cons.inj starts with ⟨rfl, -⟩
    have two : run + 2 < 3 := few
    exact .inr ⟨by omega, rfl⟩
  · rcases List.cons.inj starts with ⟨rfl, startsAgain⟩
    rcases List.cons.inj startsAgain with ⟨rfl, -⟩
    have three : run + 3 ≤ longestRun '\'' (run + 3) chars := le_longestRun _ _ _
    have same : longestRun '\'' (run + 1) ('\'' :: '\'' :: chars) =
        longestRun '\'' (run + 3) chars := rfl
    omega

/-- A string with at most two apostrophes in a row is read up to the three that close
it. -/
theorem longLiteralBody?_append (rest : List Char) {run : Nat} {chars : List Char}
    (plain : ∀ char ∈ chars, needsEscape char = false)
    (few : longestRun '\'' run chars < 3) :
    longLiteralBody? (chars ++ threeApostrophes ++ '\n' :: rest) =
      some (chars, '\n' :: rest) := by
  induction chars generalizing run with
  | nil => exact longLiteralBody?_close (.inl rfl) rest
  | cons char chars ih =>
      rcases List.forall_mem_cons.mp plain with ⟨noControl, later⟩
      rw [longestRun] at few
      rw [List.cons_append, List.cons_append]
      by_cases isApostrophe : char = '\''
      · rw [if_pos isApostrophe] at few
        rw [isApostrophe]
        by_cases last : chars = []
        · rw [last]
          exact longLiteralBody?_close (.inr (.inl rfl)) rest
        by_cases lastTwo : run = 0 ∧ chars = ['\'']
        · rw [lastTwo.2]
          exact longLiteralBody?_close (.inr (.inr rfl)) rest
        · rw [longLiteralBody?_plain rfl, ih later few]
          · rfl
          · intro _ after starts
            exact (eq_nil_or_eq_apostrophe few starts).elim last lastTwo
      · rw [if_neg isApostrophe] at few
        rw [longLiteralBody?_plain noControl fun same => absurd same isApostrophe,
          ih later (Nat.lt_of_le_of_lt (Nat.le_max_right _ _) few)]
        rfl

/-! ## Whole strings -/

/-- The line break that is put before a string with line breaks is the only one that is
taken off. -/
theorem skipLineBreak_openingBreak {chars : List Char} {first : Char} (more : List Char)
    (notReturn : first ≠ '\r') (fromString : first = '\n' → '\n' ∈ chars) :
    skipLineBreak (openingBreak chars ++ first :: more) = first :: more := by
  rw [openingBreak]
  split
  · rfl
  · next noBreak =>
      rw [List.nil_append, skipLineBreak, afterLineBreak?]
      · rfl
      · intro _ startsWithBreak
        exact noBreak (List.contains_iff_mem.mpr (fromString (List.cons.inj startsWithBreak).1))
      · exact fun _ startsWithReturn => notReturn (List.cons.inj startsWithReturn).1

theorem skipLineBreak_longQuotes (chars rest : List Char) :
    skipLineBreak (openingBreak chars ++ (escapeAll 2 0 chars ++ threeQuotes ++ rest)) =
      escapeAll 2 0 chars ++ threeQuotes ++ rest := by
  rcases chars with _ | ⟨char, chars⟩
  · exact skipLineBreak_openingBreak _ (by decide) nofun
  by_cases isQuote : char = '"'
  · rw [escapeAll, if_pos isQuote, if_pos Nat.zero_lt_two]
    exact skipLineBreak_openingBreak _ (by decide) nofun
  · rcases escapeAll_cons_eq (fun same => absurd same isQuote) chars with
      ⟨first, more, text, -, notReturn, fromString⟩
    rw [text]
    exact skipLineBreak_openingBreak _ notReturn fun isBreak =>
      List.mem_cons.mpr (.inl (fromString isBreak).symm)

theorem skipLineBreak_longApostrophes {chars : List Char}
    (plain : ∀ char ∈ chars, needsEscape char = false) (rest : List Char) :
    skipLineBreak (openingBreak chars ++ (chars ++ threeApostrophes ++ rest)) =
      chars ++ threeApostrophes ++ rest := by
  rcases chars with _ | ⟨char, chars⟩
  · exact skipLineBreak_openingBreak _ (by decide) nofun
  · exact skipLineBreak_openingBreak _
      (ne_carriageReturn_of_needsEscape (plain char List.mem_cons_self))
      fun isBreak => List.mem_cons.mpr (.inl isBreak.symm)

theorem stringChars?_quote {rest : List Char} (single : ∀ after, rest ≠ '"' :: '"' :: after) :
    stringChars? ('"' :: rest) = basicBody? rest := by
  rw [stringChars?]
  exact single

theorem stringChars?_apostrophe {rest : List Char}
    (single : ∀ after, rest ≠ '\'' :: '\'' :: after) :
    stringChars? ('\'' :: rest) = literalBody? rest := by
  rw [stringChars?]
  exact single

/-- Whether a form can hold a string. -/
def Printer.Form.Shows (chars : List Char) : Form → Prop
  | .quotes => '\n' ∉ chars
  | .apostrophes => ∀ char ∈ chars, isControl char = false ∧ char ≠ '\''
  | .longQuotes => True
  | .longApostrophes =>
      (∀ char ∈ chars, needsEscape char = false) ∧ longestRun '\'' 0 chars < 3

theorem Printer.formOf_shows (chars : List Char) : (formOf chars).Shows chars := by
  rw [formOf]
  split_ifs with quotes apostrophes longQuotes longApostrophes breaks
  · simp_all [Form.Shows]
  · simp only [Bool.and_eq_true, Bool.not_eq_true', decide_eq_true_eq, List.any_eq_false,
      List.contains_eq_mem, decide_eq_false_iff_not, Bool.not_eq_true] at apostrophes
    rcases apostrophes with ⟨⟨plain, noApostrophe⟩, noBreak⟩
    intro char member
    refine ⟨?_, ?_⟩
    · rw [isControl_eq, plain char member, Bool.false_or, decide_eq_false_iff_not]
      rintro rfl
      exact noBreak member
    · rintro rfl
      exact not_mem_of_longestRun_eq_zero noApostrophe member
  · trivial
  · simp only [Bool.and_eq_true, Bool.not_eq_true', decide_eq_true_eq, List.any_eq_false,
      Bool.not_eq_true] at longApostrophes
    exact longApostrophes
  · trivial
  · simp_all [Form.Shows]

/-- A string is read back from every form that can hold it. -/
theorem stringChars?_written_of_shows {chars : List Char} (rest : List Char) :
    {form : Form} → form.Shows chars →
      stringChars? (written chars form ++ '\n' :: rest) = some (chars, '\n' :: rest)
  | .quotes, oneLine => by
      rw [written, List.cons_append, List.cons_append, List.append_assoc, List.singleton_append,
        stringChars?_quote, basicBody?_escapeAll _ oneLine]
      intro after starts
      rcases chars with _ | ⟨char, chars⟩
      · cases starts
      · rcases escapeAll_cons_eq (fun _ => Nat.le_refl 0) chars with
          ⟨first, more, text, notQuote, -⟩
        rw [text] at starts
        exact notQuote (List.cons.inj starts).1
  | .apostrophes, plain => by
      rw [written, List.cons_append, List.cons_append, List.append_assoc, List.singleton_append,
        stringChars?_apostrophe, literalBody?_append _ plain]
      intro after starts
      rcases chars with _ | ⟨char, chars⟩
      · cases starts
      · exact (plain char List.mem_cons_self).2 (List.cons.inj starts).1
  | .longQuotes, _ => by
      calc stringChars? (written chars .longQuotes ++ '\n' :: rest)
          = longBasicBody? (skipLineBreak
              (openingBreak chars ++ (escapeAll 2 0 chars ++ threeQuotes ++ '\n' :: rest))) := by
            simp [written, threeQuotes, stringChars?]
        _ = some (chars, '\n' :: rest) := by
            rw [skipLineBreak_longQuotes, longBasicBody?_escapeAll]
  | .longApostrophes, ⟨plain, few⟩ => by
      calc stringChars? (written chars .longApostrophes ++ '\n' :: rest)
          = longLiteralBody? (skipLineBreak
              (openingBreak chars ++ (chars ++ threeApostrophes ++ '\n' :: rest))) := by
            simp [written, threeApostrophes, stringChars?]
        _ = some (chars, '\n' :: rest) := by
            rw [skipLineBreak_longApostrophes plain, longLiteralBody?_append rest plain few]

/-- A string is read back from the form that it is written in. -/
theorem stringChars?_written (chars rest : List Char) :
    stringChars? (written chars (formOf chars) ++ '\n' :: rest) = some (chars, '\n' :: rest) :=
  stringChars?_written_of_shows rest (formOf_shows chars)

/-- A string that no form shows without escapes: a line break is put before its own, and of
its quotes only the third in a row is an escape. -/
example : writeString "\n\"\"\"'''" = "\"\"\"\n\n\"\"\\\"'''\"\"\"" := by
  decide +kernel

end Toml

end SolidityModel
