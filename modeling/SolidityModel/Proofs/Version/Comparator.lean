import Mathlib.Data.List.Basic
import Mathlib.Data.Option.Basic
import SolidityModel.Proofs.Text.Numeral
import SolidityModel.Version.Parser

/-!
# Comparators as they are written

A comparator is written as an operator, or none, and numerals with dots between
them.  A list of such texts with commas between them is read if each of them has at
most three numerals and every numeral is a number of 64 bits without leading zeros;
nothing else about the texts matters (`VersionReq.ofChars?_requirementText`).
-/

namespace SolidityModel

/-! ## Numerals -/

namespace Numeral

/-- Whether a numeral is a number of 64 bits without leading zeros. -/
def IsWord (numeral : Numeral) : Prop :=
  ¬(numeral.digits.head? = some '0' ∧ 1 < numeral.digits.length) ∧
    numeral.value < Text.word64Count

instance (numeral : Numeral) : Decidable numeral.IsWord :=
  inferInstanceAs (Decidable (_ ∧ _))

end Numeral

/-! ## Reading a numeral -/

namespace VersionReq

/-- A numeral ends where no further digit stands behind it. -/
def EndsNumeral (rest : List Char) : Prop :=
  ∀ char, rest.head? = some char → char.isDigit = false

/-- A numeral is read as a whole, and only as a number of 64 bits without leading
zeros. -/
theorem readNumber?_append (numeral : Numeral) {rest : List Char} (ends : EndsNumeral rest) :
    readNumber? (numeral.digits ++ rest) =
      if numeral.IsWord then some (numeral.value, rest) else none := by
  have stops : rest.takeWhile Char.isDigit = [] ∧ rest.dropWhile Char.isDigit = rest := by
    cases rest with
    | nil => exact ⟨rfl, rfl⟩
    | cons char others => simp [ends char rfl]
  have taken : (numeral.digits ++ rest).takeWhile Char.isDigit = numeral.digits := by
    rw [List.takeWhile_append_of_pos numeral.isDigit_of_mem, stops.1, List.append_nil]
  have dropped : (numeral.digits ++ rest).dropWhile Char.isDigit = rest := by
    rw [List.dropWhile_append_of_pos numeral.isDigit_of_mem, stops.2]
  have refused : (numeral.digits.isEmpty ||
      (numeral.digits.head? = some '0' && 1 < numeral.digits.length) ||
      Text.word64Count ≤ numeral.value) = !decide numeral.IsWord := by
    rw [Bool.eq_iff_iff]
    simp [Numeral.IsWord, numeral.digits_ne_nil, imp_iff_not_or]
  rw [readNumber?, taken, dropped, numeral.numberOf_digits, refused]
  by_cases word : numeral.IsWord <;> simp [word]

theorem afterWildcard?_append (numeral : Numeral) (rest : List Char) :
    afterWildcard? (numeral.digits ++ rest) = none := by
  obtain ⟨digit, others, digitsEq, isDigit⟩ := numeral.exists_eq_cons
  rw [digitsEq]
  cases read : afterWildcard? (digit :: others ++ rest) with
  | none => rfl
  | some rest =>
      rw [afterWildcard?.eq_def] at read
      split at read <;> simp_all

/-- The place of a numeral behind a dot. -/
theorem readPlace?_append (numeral : Numeral) {rest : List Char} (ends : EndsNumeral rest) :
    readPlace? ('.' :: (numeral.digits ++ rest)) =
      if numeral.IsWord then some (.number numeral.value, rest) else none := by
  rw [readPlace?, afterWildcard?_append, readNumber?_append numeral ends]
  by_cases word : numeral.IsWord <;> simp [word]

/-- Without a dot a place stays empty. -/
theorem readPlace?_of_head?_ne {rest : List Char} (noDot : rest.head? ≠ some '.') :
    readPlace? rest = some (.absent, rest) := by
  cases rest with
  | nil => rfl
  | cons char others => rw [readPlace?.eq_2 _ fun _ equal => noDot (by rw [equal]; rfl)]

end VersionReq

/-! ## Comparators -/

/-- A comparator as a pragma writes it, with an operator or without. -/
structure WrittenComparator where
  op? : Option VersionOp
  op?_ne_wildcard : op? ≠ some .wildcard
  /-- The numeral in front of the first dot. -/
  major : Numeral
  /-- The numerals behind the dots. -/
  further : List Numeral

namespace WrittenComparator

/-- A comparator with the digits of numbers. -/
def ofNumbers (op? : Option VersionOp) (op?_ne_wildcard : op? ≠ some .wildcard) (major : Nat)
    (further : List Nat) : WrittenComparator :=
  ⟨op?, op?_ne_wildcard, .ofNat major, further.map .ofNat⟩

/-- Numerals with dots in front of them. -/
def dotted (numerals : List Numeral) : List Char :=
  numerals.flatMap fun numeral => '.' :: numeral.digits

@[simp] theorem dotted_nil : dotted [] = [] := rfl

theorem dotted_append (left right : List Numeral) :
    dotted (left ++ right) = dotted left ++ dotted right :=
  List.flatMap_append

/-- The comparator without its operator. -/
def version (written : WrittenComparator) : List Char :=
  written.major.digits ++ dotted written.further

/-- The characters of a comparator. -/
def text (written : WrittenComparator) : List Char :=
  (written.op?.map (·.sign.toList)).getD [] ++ written.version

theorem text_of_none {written : WrittenComparator} (bare : written.op? = none) :
    written.text = written.version := by
  simp [text, bare]

theorem text_of_some {written : WrittenComparator} {op : VersionOp}
    (signed : written.op? = some op) : written.text = op.sign.toList ++ written.version := by
  simp [text, signed]

/-- The operator that is meant, which is equality if none is written. -/
def op (written : WrittenComparator) : VersionOp :=
  written.op?.getD .exact

/-- Whether a comparator has one to three numerals, all of them numbers of 64 bits
without leading zeros. -/
def IsProper (written : WrittenComparator) : Prop :=
  written.further.length ≤ 2 ∧ ∀ numeral ∈ written.major :: written.further, numeral.IsWord

instance (written : WrittenComparator) : Decidable written.IsProper :=
  inferInstanceAs (Decidable (_ ∧ _))

/-- What a comparator says. -/
def comparator (written : WrittenComparator) : Comparator where
  op := written.op
  major := written.major.value
  minor? := written.further[0]?.map Numeral.value
  patch? := written.further[1]?.map Numeral.value
  preRelease := ""

/-- The characters of a comparator with the operator that is meant. -/
def signedText (written : WrittenComparator) : List Char :=
  written.op.sign.toList ++ written.version

/-- The comparator without the numerals behind the third one. -/
def firstThree (written : WrittenComparator) : WrittenComparator :=
  { written with further := written.further.take 2 }

theorem signedText_eq_firstThree (written : WrittenComparator) :
    written.signedText = written.firstThree.signedText ++ dotted (written.further.drop 2) := by
  have split : dotted written.further =
      dotted (written.further.take 2) ++ dotted (written.further.drop 2) := by
    rw [← dotted_append, List.take_append_drop]
  rw [signedText, version, split]
  change _ =
    written.op.sign.toList ++ (written.major.digits ++ dotted (written.further.take 2)) ++ _
  simp only [List.append_assoc]

theorem op_ne_wildcard (written : WrittenComparator) : written.op ≠ .wildcard := by
  rw [op]
  cases found : written.op? with
  | none => decide
  | some op => exact fun equal => written.op?_ne_wildcard (by rw [found, ← equal]; rfl)

/-- A version begins with a digit. -/
theorem exists_version_eq_cons (written : WrittenComparator) :
    ∃ digit others, written.version = digit :: others ∧ digit.isDigit = true := by
  obtain ⟨digit, others, digitsEq, isDigit⟩ := written.major.exists_eq_cons
  exact ⟨digit, others ++ dotted written.further, by rw [version, digitsEq, List.cons_append],
    isDigit⟩

theorem exists_signedText_eq_cons (written : WrittenComparator) :
    ∃ sign others, written.signedText = sign :: others ∧ sign ∈ ['=', '>', '<', '~', '^'] := by
  rw [signedText]
  cases op : written.op with
  | wildcard => exact absurd op written.op_ne_wildcard
  | exact | greater | greaterEq | less | lessEq | tilde | caret =>
      exact ⟨_, _, rfl, by decide⟩

end WrittenComparator

namespace VersionReq

/-- What can follow a version that has been read: nothing, a comma, or the dot of a
numeral too many. -/
def EndsVersion (rest : List Char) : Prop :=
  ∀ char, rest.head? = some char → char = ',' ∨ char = '.'

open WrittenComparator (dotted version comparator firstThree)

variable {written : WrittenComparator} {rest : List Char}

/-- The operator is read off in front of the version. -/
theorem readOp_signedText (written : WrittenComparator) (rest : List Char) :
    readOp (written.signedText ++ rest) = (some written.op, written.version ++ rest) := by
  obtain ⟨digit, others, versionEq, isDigit⟩ := written.exists_version_eq_cons
  have notEqual : digit ≠ '=' := by
    intro equal
    subst equal
    exact absurd isDigit (by decide)
  rw [WrittenComparator.signedText, versionEq]
  -- Behind `>` and `<` an equality sign would be read too, but a digit stands there.
  cases op : written.op with
  | wildcard => exact absurd op written.op_ne_wildcard
  | exact | tilde | caret | greaterEq | lessEq => simp [VersionOp.sign, readOp]
  | greater | less => simp [VersionOp.sign, readOp, notEqual]

namespace EndsVersion

theorem nil : EndsVersion [] := by
  intro char head
  cases head

theorem comma (rest : List Char) : EndsVersion (',' :: rest) := by
  intro char head
  exact .inl (Option.some.inj head).symm

theorem endsNumeral (ends : EndsVersion rest) : EndsNumeral rest := by
  intro char head
  cases ends char head with
  | inl comma => rw [comma]; rfl
  | inr dot => rw [dot]; rfl

theorem skipSpaces_eq (ends : EndsVersion rest) : skipSpaces rest = rest := by
  cases rest with
  | nil => rfl
  | cons char others => cases ends char rfl with
    | inl comma => rw [comma]; rfl
    | inr dot => rw [dot]; rfl

theorem readSuffix?_eq (ends : EndsVersion rest) (patch : Place) :
    readSuffix? patch rest = some ([], rest) := by
  cases rest with
  | nil => cases patch <;> rfl
  | cons char others => cases ends char rfl with
    | inl comma => rw [comma]; cases patch <;> rfl
    | inr dot => rw [dot]; cases patch <;> rfl

theorem dotted_append (numerals : List Numeral) (ends : EndsVersion rest) :
    EndsVersion (dotted numerals ++ rest) := by
  cases numerals with
  | nil => exact ends
  | cons numeral others =>
      intro char head
      exact .inr (by simpa [dotted] using head.symm)

end EndsVersion

theorem skipSpaces_version (written : WrittenComparator) (rest : List Char) :
    skipSpaces (written.version ++ rest) = written.version ++ rest := by
  obtain ⟨digit, others, versionEq, isDigit⟩ := written.exists_version_eq_cons
  have notSpace : digit ≠ ' ' := by
    intro equal
    subst equal
    exact absurd isDigit (by decide)
  rw [versionEq, List.cons_append, skipSpaces, List.dropWhile_cons_of_neg (by simpa using notSpace)]

theorem readNumber?_version (written : WrittenComparator) (ends : EndsVersion rest) :
    readNumber? (written.version ++ rest) =
      if written.major.IsWord then some (written.major.value, dotted written.further ++ rest)
      else none := by
  rw [version, List.append_assoc, readNumber?_append _ (ends.dotted_append _).endsNumeral]

theorem readPlace?_dotted (numeral : Numeral) (others : List Numeral) (ends : EndsVersion rest) :
    readPlace? (dotted (numeral :: others) ++ rest) =
      if numeral.IsWord then some (.number numeral.value, dotted others ++ rest) else none := by
  have split : dotted (numeral :: others) ++ rest =
      '.' :: (numeral.digits ++ (dotted others ++ rest)) := by
    simp [dotted]
  rw [split, readPlace?_append _ (ends.dotted_append _).endsNumeral]

/-- A proper comparator is read as what it says, unless a dot follows where a further
numeral could stand. -/
theorem readComparator?_of_isProper (proper : written.IsProper) (ends : EndsVersion rest)
    (noFurther : written.further.length = 2 ∨ rest.head? ≠ some '.') :
    readComparator? (written.signedText ++ rest) = some (written.comparator, rest) := by
  obtain ⟨op?, notWildcard, major, further⟩ := written
  obtain ⟨few, words⟩ := proper
  rw [readComparator?, readOp_signedText]
  cases further with
  | nil =>
      have noPlace := readPlace?_of_head?_ne (noFurther.resolve_left (by simp))
      simp [skipSpaces_version, readNumber?_version _ ends, words, noPlace,
        ends.readSuffix?_eq, ends.skipSpaces_eq, opOf, Place.number?, comparator]
  | cons minor others =>
      cases others with
      | nil =>
          have noPlace := readPlace?_of_head?_ne (noFurther.resolve_left (by simp))
          simp [skipSpaces_version, readNumber?_version _ ends, words, readPlace?_dotted _ _ ends,
            noPlace, ends.readSuffix?_eq, ends.skipSpaces_eq, opOf, Place.number?, comparator]
      | cons patch others =>
          obtain rfl : others = [] := List.length_eq_zero_iff.mp (by simpa using few)
          simp [skipSpaces_version, readNumber?_version _ ends, words, readPlace?_dotted _ _ ends,
            ends.readSuffix?_eq, ends.skipSpaces_eq, opOf, Place.number?, comparator]

/-- Nothing is read where one of the first three numerals has leading zeros or is too
large. -/
theorem readComparator?_eq_none {numeral : Numeral}
    (member : numeral ∈ written.major :: written.further.take 2) (notWord : ¬numeral.IsWord)
    (ends : EndsVersion rest) : readComparator? (written.signedText ++ rest) = none := by
  obtain ⟨op?, notWildcard, major, further⟩ := written
  rw [readComparator?, readOp_signedText]
  by_cases majorWord : major.IsWord
  swap
  · simp [skipSpaces_version, readNumber?_version _ ends, majorWord]
  have notMajor : numeral ≠ major := fun equal => notWord (equal ▸ majorWord)
  cases further with
  | nil => exact absurd (by simpa using member) notMajor
  | cons minor others =>
      by_cases minorWord : minor.IsWord
      swap
      · simp [skipSpaces_version, readNumber?_version _ ends, readPlace?_dotted _ _ ends,
          majorWord, minorWord]
      have notMinor : numeral ≠ minor := fun equal => notWord (equal ▸ minorWord)
      cases others with
      | nil => exact absurd (by simpa [notMajor] using member) notMinor
      | cons patch others =>
          have isPatch : numeral = patch := by simpa [notMajor, notMinor] using member
          rw [isPatch] at notWord
          simp [skipSpaces_version, readNumber?_version _ ends, readPlace?_dotted _ _ ends,
            majorWord, minorWord, notWord]

/-- A comparator that is not proper is not read, or it is left at a dot. -/
theorem readComparator?_of_not_isProper (improper : ¬written.IsProper)
    (ends : EndsVersion rest) :
    readComparator? (written.signedText ++ rest) = none ∨
      ∃ comparator behind,
        readComparator? (written.signedText ++ rest) = some (comparator, '.' :: behind) := by
  by_cases words : ∀ numeral ∈ written.major :: written.further.take 2, numeral.IsWord
  swap
  · obtain ⟨numeral, member, notWord⟩ : ∃ numeral, numeral ∈ written.major ::
        written.further.take 2 ∧ ¬numeral.IsWord := by
      simpa only [not_forall, exists_prop] using words
    exact .inl (readComparator?_eq_none member notWord ends)
  -- The first three numerals are read, and those behind them are left.
  have long : 2 < written.further.length := by
    by_contra short
    have whole : written.further.take 2 = written.further := List.take_of_length_le (by omega)
    exact improper ⟨by omega, whole ▸ words⟩
  have threeNumerals : written.firstThree.further.length = 2 := by
    rw [firstThree, List.length_take]
    omega
  have proper : written.firstThree.IsProper := ⟨by omega, words⟩
  obtain ⟨fourth, others, leftEq⟩ : ∃ fourth others, written.further.drop 2 = fourth :: others :=
    List.exists_cons_of_ne_nil (by simpa using long)
  rw [written.signedText_eq_firstThree, List.append_assoc,
    readComparator?_of_isProper proper (ends.dotted_append _) (.inl threeNumerals), leftEq]
  exact .inr ⟨_, _, rfl⟩

/-! ## Lists of comparators -/

/-- Comparators with commas between them, each with the operator that is meant. -/
def requirementText (comparators : List WrittenComparator) : List Char :=
  [',', ' '].intercalate (comparators.map WrittenComparator.signedText)

theorem requirementText_cons_cons (written next : WrittenComparator)
    (others : List WrittenComparator) :
    requirementText (written :: next :: others) =
      written.signedText ++ ',' :: ' ' :: requirementText (next :: others) := by
  simp [requirementText, List.intercalate_cons_cons]

theorem exists_requirementText_eq_append (written : WrittenComparator)
    (others : List WrittenComparator) :
    ∃ behind, requirementText (written :: others) = written.signedText ++ behind ∧
      EndsVersion behind := by
  cases others with
  | nil => exact ⟨[], by simp [requirementText], .nil⟩
  | cons next others => exact ⟨_, requirementText_cons_cons written next others, .comma _⟩

/-- A requirement begins with an operator. -/
theorem exists_requirementText_eq_cons (written : WrittenComparator)
    (others : List WrittenComparator) :
    ∃ sign behind, requirementText (written :: others) = sign :: behind ∧
      sign ∈ ['=', '>', '<', '~', '^'] := by
  obtain ⟨sign, signBehind, signedEq, isSign⟩ := written.exists_signedText_eq_cons
  obtain ⟨behind, textEq, -⟩ := exists_requirementText_eq_append written others
  exact ⟨sign, signBehind ++ behind, by rw [textEq, signedEq, List.cons_append], isSign⟩

theorem skipSpaces_requirementText (written : WrittenComparator)
    (others : List WrittenComparator) :
    skipSpaces (requirementText (written :: others)) = requirementText (written :: others) := by
  obtain ⟨sign, behind, textEq, isSign⟩ := exists_requirementText_eq_cons written others
  have notSpace : sign ≠ ' ' := by
    intro equal
    subst equal
    exact absurd isSign (by decide)
  rw [textEq, skipSpaces, List.dropWhile_cons_of_neg (by simpa using notSpace)]

theorem afterWildcard?_requirementText (written : WrittenComparator)
    (others : List WrittenComparator) :
    afterWildcard? (requirementText (written :: others)) = none := by
  obtain ⟨sign, behind, textEq, isSign⟩ := exists_requirementText_eq_cons written others
  rw [textEq]
  simp only [List.mem_cons, List.not_mem_nil, or_false] at isSign
  rcases isSign with rfl | rfl | rfl | rfl | rfl <;> rfl

theorem readComparators?_of_not_isProper (most : Nat) (improper : ¬written.IsProper)
    (others : List WrittenComparator) :
    readComparators? most (requirementText (written :: others)) = none := by
  obtain ⟨behind, textEq, ends⟩ := exists_requirementText_eq_append written others
  rw [textEq]
  cases most with
  | zero => rfl
  | succ most =>
      cases readComparator?_of_not_isProper improper ends with
      | inl unread => rw [readComparators?, unread]
      | inr leftAtDot =>
          obtain ⟨comparator, behind, read⟩ := leftAtDot
          rw [readComparators?, read]
          rfl

theorem readComparators?_singleton (most : Nat) (proper : written.IsProper) :
    readComparators? (most + 1) (requirementText [written]) = some [written.comparator] := by
  have textEq : requirementText [written] = written.signedText ++ [] := by simp [requirementText]
  rw [textEq, readComparators?, readComparator?_of_isProper proper .nil (.inr (by simp))]

theorem readComparators?_cons_cons (most : Nat) (proper : written.IsProper)
    (next : WrittenComparator) (others : List WrittenComparator) :
    readComparators? (most + 1) (requirementText (written :: next :: others)) =
      (readComparators? most (requirementText (next :: others))).map (written.comparator :: ·) := by
  have skipped : skipSpaces (' ' :: requirementText (next :: others)) =
      requirementText (next :: others) := skipSpaces_requirementText next others
  rw [requirementText_cons_cons, readComparators?,
    readComparator?_of_isProper proper (.comma _) (.inr (by simp))]
  simp only [skipped]

/-- Comparators with commas between them are read if they are not too many and all
of them are proper. -/
theorem readComparators?_requirementText (most : Nat) (written : WrittenComparator)
    (others : List WrittenComparator) :
    readComparators? most (requirementText (written :: others)) =
      if (written :: others).length ≤ most ∧ ∀ each ∈ written :: others, each.IsProper then
        some ((written :: others).map comparator)
      else none := by
  -- A comparator that is not proper ends the reading before the limit is looked at.
  induction others generalizing most written with
  | nil =>
      by_cases proper : written.IsProper
      · cases most with
        | zero => simp [readComparators?]
        | succ most => simp [readComparators?_singleton most proper, proper]
      · simp [readComparators?_of_not_isProper most proper, proper]
  | cons next others ih =>
      by_cases proper : written.IsProper
      · cases most with
        | zero => simp [readComparators?]
        | succ most =>
            rw [readComparators?_cons_cons most proper, ih]
            simp [proper, apply_ite]
      · simp [readComparators?_of_not_isProper most proper, proper]

/-- What comparators require, if they are at most 32 and all of them are proper. -/
def requirement? (comparators : List WrittenComparator) : Option VersionReq :=
  if comparators.length ≤ 32 ∧ ∀ each ∈ comparators, each.IsProper then
    some ⟨comparators.map comparator⟩
  else none

theorem ofChars?_requirementText {comparators : List WrittenComparator}
    (nonempty : comparators ≠ []) :
    ofChars? (requirementText comparators) = requirement? comparators := by
  obtain ⟨written, others, rfl⟩ := List.exists_cons_of_ne_nil nonempty
  rw [ofChars?, skipSpaces_requirementText, afterWildcard?_requirementText]
  simp only [readComparators?_requirementText, requirement?]
  split <;> rfl

end VersionReq

end SolidityModel
