import Mathlib.Data.List.Basic
import SolidityModel.Text.Integer

/-!
# Numerals

A numeral is one or more decimal digits.  An integer is written as a numeral, with a
sign in front of it or without one.  The readers of integers of bounded size accept
exactly the texts of the integers within their bounds (`Text.int64_eq_ok_iff`,
`Text.word64?_eq_some_iff`): they stop at the digit that leads beyond a bound, and
leave no number wrapped around or cut off.
-/

namespace SolidityModel

/-- One or more decimal digits. -/
structure Numeral where
  digits : List Char
  digits_ne_nil : digits ≠ []
  isDigit_of_mem : ∀ digit ∈ digits, digit.isDigit = true

namespace Numeral

/-- The digits of a number. -/
def ofNat (number : Nat) : Numeral where
  digits := Nat.toDigits 10 number
  digits_ne_nil := Nat.toDigits_ne_nil
  isDigit_of_mem _ member := Nat.isDigit_of_mem_toDigits (by decide) (by decide) member

/-- The digits of one numeral and then those of another. -/
def append (left right : Numeral) : Numeral where
  digits := left.digits ++ right.digits
  digits_ne_nil := by simp [left.digits_ne_nil]
  isDigit_of_mem digit member := by
    cases List.mem_append.mp member with
    | inl inLeft => exact left.isDigit_of_mem digit inLeft
    | inr inRight => exact right.isDigit_of_mem digit inRight

/-- The number that a numeral writes. -/
def value (numeral : Numeral) : Nat :=
  Nat.ofDigitChars 10 numeral.digits 0

theorem exists_eq_cons (numeral : Numeral) :
    ∃ digit others, numeral.digits = digit :: others ∧ digit.isDigit = true := by
  cases split : numeral.digits with
  | nil => exact absurd split numeral.digits_ne_nil
  | cons digit others =>
      exact ⟨digit, others, rfl, numeral.isDigit_of_mem digit (by simp [split])⟩

end Numeral

namespace Text

theorem toNat_bounds_of_isDigit {char : Char} (digit : char.isDigit = true) :
    48 ≤ char.toNat ∧ char.toNat ≤ 57 := by
  delta Char.isDigit at digit
  simp only [Bool.and_eq_true, decide_eq_true_eq, UInt32.le_iff_toNat_le, ge_iff_le] at digit
  exact digit

theorem digitValue?_of_isDigit {char : Char} (digit : char.isDigit = true) :
    digitValue? 10 char = some (char.toNat - '0'.toNat) := by
  obtain ⟨above, below⟩ := toNat_bounds_of_isDigit digit
  have hexDigit : hexValue? char = some (char.toNat - '0'.toNat) := if_pos ⟨above, below⟩
  have small : char.toNat - '0'.toNat < 10 := by
    change char.toNat - 48 < 10
    omega
  rw [digitValue?, hexDigit, Option.filter_some, if_pos (by simpa using small)]

end Text

theorem Numeral.numberOf_digits (numeral : Numeral) :
    Text.numberOf 10 numeral.digits = numeral.value := by
  rw [Text.numberOf, value, Nat.ofDigitChars_eq_foldl]
  apply List.foldl_ext
  intro sofar digit member
  rw [Text.digitValue?_of_isDigit (numeral.isDigit_of_mem digit member), Option.getD_some,
    Nat.mul_comm]

@[simp] theorem Numeral.value_ofNat (number : Nat) : (Numeral.ofNat number).value = number :=
  Nat.ofDigitChars_toDigits (by decide) (by decide)

/-- A numeral does not begin with a character that is no digit, such as a sign. -/
theorem Numeral.digits_ne_cons {char : Char} (noDigit : char.isDigit = false) (numeral : Numeral)
    (rest : List Char) : numeral.digits ≠ char :: rest := by
  intro begins
  have isDigit := numeral.isDigit_of_mem char (begins ▸ List.mem_cons_self)
  rw [noDigit] at isDigit
  cases isDigit

namespace Text

/-! ## Reading digits up to a bound -/

theorem isDigit_of_digitValue? {char : Char} {value : Nat}
    (found : digitValue? 10 char = some value) : char.isDigit = true := by
  obtain ⟨hexFound, small⟩ := Option.filter_eq_some_iff.mp found
  rw [decide_eq_true_eq] at small
  rw [hexValue?] at hexFound
  split at hexFound
  next bounds =>
    delta Char.isDigit
    rw [Bool.and_eq_true, decide_eq_true_eq, decide_eq_true_eq]
    exact bounds
  next =>
    -- A letter stands for ten at least.
    split at hexFound
    next => cases hexFound; omega
    next =>
      split at hexFound
      next => cases hexFound; omega
      next => cases hexFound

/-- The digits that follow make a number no smaller. -/
theorem le_ofDigitChars (value : Nat) (digits : List Char) :
    value ≤ Nat.ofDigitChars 10 digits value := by
  induction digits generalizing value with
  | nil => exact Nat.le_refl value
  | cons digit rest ih =>
      rw [Nat.ofDigitChars_cons]
      exact Nat.le_trans (by omega) (ih _)

/-- Digits are read if they are digits and the whole number is within the bound: no
number on the way is greater. -/
theorem digitsFrom_eq_ok_iff {largest value result : Nat} {beyond : IntegerFault}
    {text : List Char} (within : value ≤ largest) :
    digitsFrom largest beyond value text = .ok result ↔
      (∀ char ∈ text, char.isDigit = true) ∧ Nat.ofDigitChars 10 text value = result ∧
        result ≤ largest := by
  induction text generalizing value with
  | nil =>
      simp only [digitsFrom, Except.ok.injEq, Nat.ofDigitChars_nil]
      constructor
      · rintro rfl
        exact ⟨by simp, rfl, within⟩
      · exact fun ⟨_, equal, _⟩ => equal
  | cons char rest ih =>
      rw [digitsFrom, List.forall_mem_cons]
      cases digit : digitValue? 10 char with
      | none =>
          have noDigit : ¬char.isDigit = true := fun isDigit => by
            rw [digitValue?_of_isDigit isDigit] at digit
            cases digit
          simp [noDigit]
      | some number =>
          have isDigit := isDigit_of_digitValue? digit
          rw [digitValue?_of_isDigit isDigit] at digit
          cases digit
          rw [Nat.ofDigitChars_cons, Nat.mul_comm 10 value]
          dsimp only
          by_cases tooGreat : largest < value * 10 + (char.toNat - '0'.toNat)
          · rw [if_pos tooGreat]
            have grows := le_ofDigitChars (value * 10 + (char.toNat - '0'.toNat)) rest
            constructor
            · intro read
              cases read
            · rintro ⟨_, rfl, small⟩
              omega
          · rw [if_neg tooGreat, ih (Nat.le_of_not_lt tooGreat), and_iff_right isDigit]

/-! ## Reading integers -/

/-- The texts of an integer. -/
inductive WritesInteger : List Char → Int → Prop where
  | plain (numeral : Numeral) : WritesInteger numeral.digits numeral.value
  | plus (numeral : Numeral) : WritesInteger ('+' :: numeral.digits) numeral.value
  | minus (numeral : Numeral) : WritesInteger ('-' :: numeral.digits) (-numeral.value)

/-- The texts of an integer of 64 bits, one of them the sign. -/
structure WritesInt64 (text : List Char) (value : Int) : Prop where
  writes : WritesInteger text value
  above : -(int64Magnitude : Int) ≤ value
  below : value < int64Magnitude

/-- A numeral is read after a sign or without one, if the number is within the
bound. -/
theorem digitsFrom_zero_eq_ok_iff {largest result : Nat} {beyond : IntegerFault}
    {text : List Char} (nonempty : text ≠ []) :
    digitsFrom largest beyond 0 text = .ok result ↔
      ∃ numeral : Numeral, text = numeral.digits ∧ numeral.value = result ∧ result ≤ largest := by
  rw [digitsFrom_eq_ok_iff (Nat.zero_le largest)]
  constructor
  · rintro ⟨digits, value, within⟩
    exact ⟨⟨text, nonempty, digits⟩, rfl, value, within⟩
  · rintro ⟨numeral, rfl, value, within⟩
    exact ⟨numeral.isDigit_of_mem, value, within⟩

theorem map_eq_ok_iff {ε α β : Type} {outcome : Except ε α} {f : α → β} {value : β} :
    outcome.map f = .ok value ↔ ∃ result, outcome = .ok result ∧ f result = value := by
  cases outcome <;> simp [Except.map]

theorem toOption_eq_some_iff {ε α : Type} {outcome : Except ε α} {value : α} :
    outcome.toOption = some value ↔ outcome = .ok value := by
  cases outcome <;> simp [Except.toOption]

/-- What is read without a sign has at most 64 bits. -/
theorem word64?_eq_some_iff {text : List Char} {value : Nat} :
    word64? text = some value ↔
      ∃ numeral : Numeral, text = numeral.digits ∧ numeral.value = value ∧
        value < word64Count := by
  have belowCount : value ≤ word64Count - 1 ↔ value < word64Count :=
    Nat.le_sub_one_iff_lt (by decide)
  by_cases empty : text = []
  · rw [empty]
    simp only [word64?, reduceCtorEq, false_iff]
    rintro ⟨numeral, noDigits, _⟩
    exact numeral.digits_ne_nil noDigits.symm
  · have reads : word64? text = (digitsFrom (word64Count - 1) .tooLarge 0 text).toOption :=
      word64?.eq_2 text empty
    rw [reads, ← belowCount, toOption_eq_some_iff, digitsFrom_zero_eq_ok_iff empty]

theorem map_ofNat_eq_ok_iff {digits : List Char} {value : Int} (nonempty : digits ≠ []) :
    (digitsFrom (int64Magnitude - 1) .tooLarge 0 digits).map Int.ofNat = .ok value ↔
      ∃ numeral : Numeral, digits = numeral.digits ∧ (numeral.value : Int) = value ∧
        value < int64Magnitude := by
  simp only [map_eq_ok_iff, digitsFrom_zero_eq_ok_iff nonempty]
  constructor
  · rintro ⟨_, ⟨numeral, spelled, rfl, within⟩, rfl⟩
    refine ⟨numeral, spelled, rfl, ?_⟩
    exact Int.ofNat_lt.mpr ((Nat.le_sub_one_iff_lt (by decide)).mp within)
  · rintro ⟨numeral, spelled, rfl, within⟩
    refine ⟨numeral.value, ⟨numeral, spelled, rfl, ?_⟩, rfl⟩
    exact (Nat.le_sub_one_iff_lt (by decide)).mpr (Int.ofNat_lt.mp within)

theorem int64_minus_eq_ok_iff {digits : List Char} {value : Int} (nonempty : digits ≠ []) :
    int64 ('-' :: digits) = .ok value ↔
      ∃ numeral : Numeral, digits = numeral.digits ∧ -(numeral.value : Int) = value ∧
        -(int64Magnitude : Int) ≤ value := by
  have reads : int64 ('-' :: digits) =
      (digitsFrom int64Magnitude .tooSmall 0 digits).map fun value : Nat => -(value : Int) := by
    rw [int64.eq_4 digits nonempty]
    cases digitsFrom int64Magnitude .tooSmall 0 digits <;> rfl
  simp only [reads, map_eq_ok_iff, digitsFrom_zero_eq_ok_iff nonempty]
  constructor
  · rintro ⟨_, ⟨numeral, spelled, rfl, within⟩, rfl⟩
    exact ⟨numeral, spelled, rfl, by omega⟩
  · rintro ⟨numeral, spelled, rfl, within⟩
    exact ⟨numeral.value, ⟨numeral, spelled, rfl, by omega⟩, rfl⟩

/-- What is read, after a sign or without one, are the texts of integers of 64 bits. -/
theorem int64_eq_ok_iff {text : List Char} {value : Int} :
    int64 text = .ok value ↔ WritesInt64 text value := by
  constructor
  · intro read
    rw [int64.eq_def] at read
    split at read
    next => cases read
    next => cases read
    next => cases read
    next digits nonempty =>
      rw [← int64.eq_4 digits nonempty, int64_minus_eq_ok_iff nonempty] at read
      rcases read with ⟨numeral, rfl, rfl, within⟩
      have positive : 0 < int64Magnitude := by decide
      exact ⟨.minus numeral, within, by omega⟩
    next digits nonempty =>
      rcases (map_ofNat_eq_ok_iff nonempty).mp read with ⟨numeral, rfl, rfl, within⟩
      exact ⟨.plus numeral, by omega, within⟩
    next nonempty _ _ _ _ =>
      rcases (map_ofNat_eq_ok_iff nonempty).mp read with ⟨numeral, rfl, rfl, within⟩
      exact ⟨.plain numeral, by omega, within⟩
  · rintro ⟨writes, above, below⟩
    cases writes with
    | plain numeral =>
        have noMinus := numeral.digits_ne_cons (by decide : '-'.isDigit = false)
        have noPlus := numeral.digits_ne_cons (by decide : '+'.isDigit = false)
        rw [int64.eq_6 _ numeral.digits_ne_nil (noPlus []) (noMinus []) noMinus noPlus]
        exact (map_ofNat_eq_ok_iff numeral.digits_ne_nil).mpr ⟨numeral, rfl, rfl, below⟩
    | plus numeral =>
        rw [int64.eq_5 numeral.digits numeral.digits_ne_nil]
        exact (map_ofNat_eq_ok_iff numeral.digits_ne_nil).mpr ⟨numeral, rfl, rfl, below⟩
    | minus numeral =>
        exact (int64_minus_eq_ok_iff numeral.digits_ne_nil).mpr ⟨numeral, rfl, rfl, above⟩

end Text

end SolidityModel
