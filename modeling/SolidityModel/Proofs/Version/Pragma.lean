import SolidityModel.Proofs.Version.Comparator
import SolidityModel.Version.Pragma

/-!
# Comparators of a pragma

A pragma loses its white space before it is cut, and it is cut only in front of an
operator.  So white space may stand anywhere as long as every comparator but the
first has an operator (`VersionReq.ofPragma?_of_spacedOut`).  A comparator without
one is glued to the comparator in front of it, whatever white space stands between
them (`VersionReq.ofPragma?_of_separated`).
-/

namespace SolidityModel

namespace Text

/-- A text with white space put in at any places. -/
inductive SpacedOut : (plain spaced : List Char) → Prop where
  | nil : SpacedOut [] []
  | keep {plain spaced : List Char} (char : Char) (rest : SpacedOut plain spaced) :
      SpacedOut (char :: plain) (char :: spaced)
  | blank {plain spaced : List Char} {char : Char} (isBlank : isBlank char = true)
      (rest : SpacedOut plain spaced) : SpacedOut plain (char :: spaced)

/-- Texts in their order with white space between them, at least one character at
every border. -/
inductive Separated : (parts : List (List Char)) → (text : List Char) → Prop where
  | single (part : List Char) : Separated [part] part
  | cons (part : List Char) {gap text : List Char} {parts : List (List Char)}
      (nonempty : gap ≠ []) (blank : ∀ char ∈ gap, isBlank char = true)
      (rest : Separated parts text) : Separated (part :: parts) (part ++ gap ++ text)

namespace SpacedOut

variable {plain spaced : List Char}

theorem refl : (text : List Char) → SpacedOut text text
  | [] => .nil
  | char :: rest => .keep char (refl rest)

theorem append_left (text : List Char) (rest : SpacedOut plain spaced) :
    SpacedOut (text ++ plain) (text ++ spaced) := by
  induction text with
  | nil => exact rest
  | cons char others ih => exact .keep char ih

theorem blanks {gap : List Char} (blank : ∀ char ∈ gap, isBlank char = true)
    (rest : SpacedOut plain spaced) : SpacedOut plain (gap ++ spaced) := by
  induction gap with
  | nil => exact rest
  | cons char others ih =>
      exact .blank (blank char (by simp)) (ih fun other member => blank other (by simp [member]))

/-- Every text is its other characters with white space put in. -/
theorem of_filter (text : List Char) :
    SpacedOut (text.filter fun char => !isBlank char) text := by
  induction text with
  | nil => exact .nil
  | cons char rest ih =>
      rw [List.filter_cons]
      split
      next => exact .keep char ih
      next isBlank => exact .blank (by simpa using isBlank) ih

/-- Without its white space a text is as it was before white space was put in. -/
theorem filter_eq (spacedOut : SpacedOut plain spaced)
    (solid : ∀ char ∈ plain, isBlank char = false) :
    (spaced.filter fun char => !isBlank char) = plain := by
  induction spacedOut with
  | nil => rfl
  | keep char _ ih =>
      rw [List.filter_cons_of_pos (by simp [solid char]),
        ih fun other member => solid other (by simp [member])]
  | blank isBlank _ ih => rw [List.filter_cons_of_neg (by simp [isBlank]), ih solid]

end SpacedOut

theorem Separated.spacedOut {parts : List (List Char)} {text : List Char}
    (separated : Separated parts text) : SpacedOut parts.flatten text := by
  induction separated with
  | single part => simpa using SpacedOut.refl part
  | cons part _ blank _ ih =>
      rw [List.flatten_cons, List.append_assoc]
      exact .append_left part (.blanks blank ih)

theorem isBlank_eq_false_of_isDigit {char : Char} (digit : char.isDigit = true) :
    isBlank char = false := by
  have bounds := toNat_bounds_of_isDigit digit
  have outside : ∀ code ∈ blankCodes, code < 48 ∨ 57 < code := by decide
  rw [isBlank, List.contains_eq_mem, decide_eq_false_iff_not]
  intro member
  have different := outside char.toNat member
  omega

end Text

/-! ## Gluing -/

namespace WrittenComparator

/-- Further digits behind the last of some numerals. -/
def extendLast (more : Numeral) : Numeral → List Numeral → Numeral × List Numeral
  | last, [] => (last.append more, [])
  | first, next :: rest => (first, (extendLast more next rest).1 :: (extendLast more next rest).2)

/-- Two comparators without anything between them, the second one without its
operator.  The numerals at the border become one. -/
def glue (left right : WrittenComparator) : WrittenComparator :=
  { left with
    major := (extendLast right.major left.major left.further).1
    further := (extendLast right.major left.major left.further).2 ++ right.further }

/-- Comparators behind a first one, where those without an operator are glued to
what stands in front of them. -/
def glueAll : WrittenComparator → List WrittenComparator → List WrittenComparator
  | first, [] => [first]
  | first, next :: rest =>
      if next.op?.isSome then first :: glueAll next rest else glueAll (first.glue next) rest

theorem glueAll_ne_nil (first : WrittenComparator) (rest : List WrittenComparator) :
    glueAll first rest ≠ [] := by
  induction rest generalizing first with
  | nil => simp [glueAll]
  | cons next rest ih =>
      rw [glueAll]
      split
      · exact List.cons_ne_nil _ _
      · exact ih _

/-- Nothing is glued where every comparator but the first has an operator. -/
theorem glueAll_of_signed {first : WrittenComparator} {rest : List WrittenComparator}
    (signed : ∀ each ∈ rest, each.op?.isSome = true) : glueAll first rest = first :: rest := by
  induction rest generalizing first with
  | nil => rfl
  | cons next rest ih =>
      rw [glueAll, if_pos (signed next (by simp)),
        ih fun each member => signed each (by simp [member])]

theorem length_glueAll_le (first : WrittenComparator) (rest : List WrittenComparator) :
    (glueAll first rest).length ≤ (first :: rest).length := by
  induction rest generalizing first with
  | nil => exact Nat.le_refl _
  | cons next rest ih =>
      rw [glueAll]
      split
      · simpa using ih next
      · exact Nat.le_trans (ih _) (by simp)

/-- Where a comparator is glued there are fewer of them afterwards. -/
theorem length_glueAll_lt {first each : WrittenComparator} {rest : List WrittenComparator}
    (member : each ∈ rest) (bare : each.op? = none) :
    (glueAll first rest).length < (first :: rest).length := by
  induction rest generalizing first with
  | nil => cases member
  | cons next rest ih =>
      rw [glueAll]
      split
      next signed =>
        have later : each ∈ rest := by
          cases List.mem_cons.mp member with
          | inl equal => rw [← equal, bare] at signed; cases signed
          | inr later => exact later
        simpa using ih later
      next => exact Nat.lt_of_le_of_lt (length_glueAll_le _ rest) (by simp)

theorem text_extendLast (more first : Numeral) (rest : List Numeral) :
    (extendLast more first rest).1.digits ++ dotted (extendLast more first rest).2 =
      first.digits ++ dotted rest ++ more.digits := by
  induction rest generalizing first with
  | nil => simp [extendLast, Numeral.append]
  | cons next rest ih => simpa [extendLast, dotted] using ih next

/-- Glued comparators have the characters of both. -/
theorem text_glue (left : WrittenComparator) {right : WrittenComparator}
    (bare : right.op? = none) : (left.glue right).text = left.text ++ right.text := by
  simp only [text, version, glue, bare, dotted_append]
  rw [← List.append_assoc (extendLast _ _ _).1.digits, text_extendLast]
  simp

end WrittenComparator

/-! ## Cutting a pragma -/

theorem WrittenComparator.digit_or_dot_of_mem_version {written : WrittenComparator} {char : Char}
    (member : char ∈ written.version) : char.isDigit = true ∨ char = '.' := by
  rw [version, List.mem_append, dotted, List.mem_flatMap] at member
  rcases member with inMajor | ⟨numeral, -, inNumeral⟩
  · exact .inl (written.major.isDigit_of_mem char inMajor)
  · cases List.mem_cons.mp inNumeral with
    | inl dot => exact .inr dot
    | inr digit => exact .inl (numeral.isDigit_of_mem char digit)

namespace VersionReq

open WrittenComparator

theorem isOperatorChar_of_mem_version {written : WrittenComparator} {char : Char}
    (member : char ∈ written.version) : isOperatorChar char = false := by
  cases digit_or_dot_of_mem_version member with
  | inl digit =>
      have bounds := Text.toNat_bounds_of_isDigit digit
      have outside : ∀ sign ∈ ['<', '>', '=', '^', '~'], 57 < sign.toNat := by simp
      cases isOperator : isOperatorChar char with
      | false => rfl
      | true =>
          have beyond := outside char (by simpa [isOperatorChar, or_assoc] using isOperator)
          omega
  | inr dot => rw [dot]; rfl

theorem isOperatorChar_of_mem_sign {op : VersionOp} {char : Char}
    (member : char ∈ op.sign.toList) : isOperatorChar char = true := by
  have all : ∀ char ∈ op.sign.toList, isOperatorChar char = true := by
    cases op <;> simp [VersionOp.sign, isOperatorChar]
  exact all char member

theorem cutComparators_border {char : Char} (operator : isOperatorChar char = true)
    (current rest : List Char) :
    cutComparators current true (char :: rest) =
      current :: cutComparators [] false (char :: rest) := by
  simp [cutComparators, operator]

/-- The characters of an operator are no border as long as no version has begun. -/
theorem cutComparators_operator {sign : List Char}
    (operator : ∀ char ∈ sign, isOperatorChar char = true) (current rest : List Char) :
    cutComparators current false (sign ++ rest) = cutComparators (current ++ sign) false rest := by
  induction sign generalizing current with
  | nil => simp
  | cons char others ih =>
      rw [List.cons_append, cutComparators, if_pos (operator char (by simp)),
        if_neg Bool.false_ne_true, ih fun other member => operator other (by simp [member]),
        List.append_assoc, List.singleton_append]

/-- Characters that belong to no operator are no border. -/
theorem cutComparators_noOperator {plain : List Char}
    (noOperator : ∀ char ∈ plain, isOperatorChar char = false) (current rest : List Char) :
    cutComparators current true (plain ++ rest) = cutComparators (current ++ plain) true rest := by
  induction plain generalizing current with
  | nil => simp
  | cons char others ih =>
      rw [List.cons_append, cutComparators, if_neg (by simp [noOperator char]),
        ih fun other member => noOperator other (by simp [member]), List.append_assoc,
        List.singleton_append]

theorem cutComparators_version (current : List Char) (inVersion : Bool)
    (written : WrittenComparator) (rest : List Char) :
    cutComparators current inVersion (written.version ++ rest) =
      cutComparators (current ++ written.version) true rest := by
  have noOperator : ∀ char ∈ written.version, isOperatorChar char = false :=
    fun char => isOperatorChar_of_mem_version
  obtain ⟨digit, others, versionEq, -⟩ := written.exists_version_eq_cons
  rw [versionEq] at noOperator ⊢
  rw [List.cons_append, cutComparators, if_neg (by simp [noOperator digit]),
    cutComparators_noOperator fun char member => noOperator char (by simp [member]),
    List.append_assoc, List.singleton_append]

theorem cutComparators_text (written : WrittenComparator) (rest : List Char) :
    cutComparators [] false (written.text ++ rest) = cutComparators written.text true rest := by
  cases found : written.op? with
  | none => rw [text_of_none found, cutComparators_version, List.nil_append]
  | some op =>
      have operator : ∀ char ∈ op.sign.toList, isOperatorChar char = true :=
        fun char => isOperatorChar_of_mem_sign
      rw [text_of_some found, List.append_assoc, cutComparators_operator operator,
        cutComparators_version, List.nil_append]

/-- A comparator with an operator ends the one in front of it. -/
theorem cutComparators_signed (current : List Char) {written : WrittenComparator}
    (signed : written.op?.isSome = true) (rest : List Char) :
    cutComparators current true (written.text ++ rest) =
      current :: cutComparators written.text true rest := by
  obtain ⟨op, found⟩ := Option.isSome_iff_exists.mp signed
  rw [← cutComparators_text, text_of_some found]
  cases op with
  | wildcard => exact absurd found written.op?_ne_wildcard
  | exact | greater | greaterEq | less | lessEq | tilde | caret =>
      exact cutComparators_border rfl _ _

/-- A comparator without an operator goes on with the one in front of it. -/
theorem cutComparators_bare (first : WrittenComparator) {written : WrittenComparator}
    (bare : written.op? = none) (rest : List Char) :
    cutComparators first.text true (written.text ++ rest) =
      cutComparators (first.glue written).text true rest := by
  rw [text_glue first bare, text_of_none bare, cutComparators_version]

/-- A pragma without white space is cut into its comparators, those without an
operator being glued. -/
theorem cutComparators_flatMap_text (first : WrittenComparator)
    (rest : List WrittenComparator) :
    cutComparators first.text true (rest.flatMap text) = (glueAll first rest).map text := by
  -- What is being read is always the text of a comparator, so it is the first one that
  -- changes along the induction.
  induction rest generalizing first with
  | nil =>
      obtain ⟨digit, others, versionEq, -⟩ := first.exists_version_eq_cons
      have nonempty : first.text ≠ [] := by simp [text, versionEq]
      simp [cutComparators, glueAll, nonempty]
  | cons next rest ih =>
      rw [List.flatMap_cons, glueAll]
      split
      next signed => rw [cutComparators_signed _ signed, ih, List.map_cons]
      next unsigned =>
        have bare : next.op? = none := by simpa using unsigned
        rw [cutComparators_bare first bare, ih]

theorem withOperator_text (written : WrittenComparator) :
    withOperator written.text = written.signedText := by
  rw [signedText, op]
  cases found : written.op? with
  | none =>
      obtain ⟨digit, others, versionEq, isDigit⟩ := written.exists_version_eq_cons
      rw [text_of_none found, versionEq, withOperator, if_pos isDigit]
      rfl
  | some op =>
      rw [text_of_some found]
      cases op with
      | wildcard => exact absurd found written.op?_ne_wildcard
      | exact | greater | greaterEq | less | lessEq | tilde | caret => rfl

theorem isBlank_of_mem_text {written : WrittenComparator} {char : Char}
    (member : char ∈ written.text) : Text.isBlank char = false := by
  have inVersion : char ∈ written.version → Text.isBlank char = false := by
    intro member
    cases digit_or_dot_of_mem_version member with
    | inl digit => exact Text.isBlank_eq_false_of_isDigit digit
    | inr dot => rw [dot]; rfl
  cases found : written.op? with
  | none => exact inVersion (text_of_none found ▸ member)
  | some op =>
      have noBlank : ∀ sign ∈ op.sign.toList, Text.isBlank sign = false := by
        cases op <;> simp [VersionOp.sign, Text.isBlank, Text.blankCodes]
      rw [text_of_some found] at member
      cases List.mem_append.mp member with
      | inl inSign => exact noBlank char inSign
      | inr member => exact inVersion member

/-- A pragma is read as its comparators in their order, those without an operator
being glued.  White space does not count. -/
theorem ofPragma?_eq_requirement? {first : WrittenComparator} {rest : List WrittenComparator}
    {pragma : String}
    (spacedOut : Text.SpacedOut ((first :: rest).flatMap text) pragma.toList) :
    ofPragma? pragma = requirement? (glueAll first rest) := by
  have solid : ∀ char ∈ (first :: rest).flatMap text, Text.isBlank char = false := by
    intro char member
    obtain ⟨written, -, inText⟩ := List.mem_flatMap.mp member
    exact isBlank_of_mem_text inText
  have normalizedEq : normalized pragma = requirementText (glueAll first rest) := by
    rw [normalized, spacedOut.filter_eq solid, List.flatMap_cons, cutComparators_text,
      cutComparators_flatMap_text, List.map_map, requirementText]
    congr 1
    exact List.map_congr_left fun written _ => withOperator_text written
  rw [ofPragma?, normalizedEq, ofChars?_requirementText (glueAll_ne_nil first rest)]

/-- With white space at any places a pragma is read as its comparators, if all of
them but the first have an operator. -/
theorem ofPragma?_of_spacedOut {first : WrittenComparator} {rest : List WrittenComparator}
    {pragma : String} (proper : ∀ each ∈ first :: rest, each.IsProper)
    (signed : ∀ each ∈ rest, each.op?.isSome = true) (few : (first :: rest).length ≤ 32)
    (spacedOut : Text.SpacedOut ((first :: rest).flatMap text) pragma.toList) :
    ofPragma? pragma = some ⟨(first :: rest).map comparator⟩ := by
  rw [ofPragma?_eq_requirement? spacedOut, glueAll_of_signed signed, requirement?,
    if_pos ⟨few, proper⟩]

/-- White space within a version and within an operator. -/
theorem ofPragma?_loose :
    let first := ofNumbers none (by decide) 0 [4, 22]
    let rest := [ofNumbers (some .greaterEq) (by decide) 0 [4],
      ofNumbers (some .less) (by decide) 1 []]
    let pragma := "0. 4.2 2 > =0.4\t<1 "
    (∀ each ∈ first :: rest, each.IsProper) ∧ (∀ each ∈ rest, each.op?.isSome = true) ∧
      (first :: rest).length ≤ 32 ∧
      Text.SpacedOut ((first :: rest).flatMap text) pragma.toList ∧
      ofPragma? pragma = some ⟨[⟨.exact, 0, some 4, some 22, ""⟩,
        ⟨.greaterEq, 0, some 4, none, ""⟩, ⟨.less, 1, none, none, ""⟩]⟩ := by
  intro first rest pragma
  have proper : ∀ each ∈ first :: rest, each.IsProper := by decide +kernel
  have signed : ∀ each ∈ rest, each.op?.isSome = true := by decide
  have few : (first :: rest).length ≤ 32 := by decide
  have plain : (pragma.toList.filter fun char => !Text.isBlank char) =
      (first :: rest).flatMap text := by decide +kernel
  have spacedOut : Text.SpacedOut ((first :: rest).flatMap text) pragma.toList :=
    plain ▸ Text.SpacedOut.of_filter pragma.toList
  have said : (first :: rest).map comparator = [⟨.exact, 0, some 4, some 22, ""⟩,
      ⟨.greaterEq, 0, some 4, none, ""⟩, ⟨.less, 1, none, none, ""⟩] := by decide +kernel
  have read := ofPragma?_of_spacedOut proper signed few spacedOut
  exact ⟨proper, signed, few, spacedOut, read.trans (by rw [said])⟩

/-- A pragma whose comparators stand apart is read as these if all of them but the
first have an operator.  If one of the others has none, it is glued to the one in
front of it, and what is read, if anything, has fewer comparators. -/
theorem ofPragma?_of_separated {first : WrittenComparator} {rest : List WrittenComparator}
    {pragma : String} (proper : ∀ each ∈ first :: rest, each.IsProper)
    (separated : Text.Separated ((first :: rest).map text) pragma.toList) :
    ofPragma? pragma = requirement? (glueAll first rest) ∧
    ((∀ each ∈ rest, each.op?.isSome = true) →
      ofPragma? pragma =
        if (first :: rest).length ≤ 32 then some ⟨(first :: rest).map comparator⟩ else none) ∧
    ((∃ each ∈ rest, each.op? = none) →
      ∀ requirement, ofPragma? pragma = some requirement →
        requirement.comparators.length < (first :: rest).length) := by
  have glued : ofPragma? pragma = requirement? (glueAll first rest) :=
    ofPragma?_eq_requirement? separated.spacedOut
  refine ⟨glued, ?_, ?_⟩
  · intro signed
    rw [glued, glueAll_of_signed signed, requirement?]
    exact if_congr (and_iff_left proper) rfl rfl
  · intro hasBare requirement read
    obtain ⟨each, member, bare⟩ := hasBare
    rw [glued, requirement?] at read
    split at read
    · obtain rfl := Option.some.inj read
      simpa using length_glueAll_lt member bare
    · cases read

/-- The last number of a version and the first one of the next become one number. -/
theorem ofPragma?_glued :
    let first := ofNumbers (some .greaterEq) (by decide) 0 [8, 1]
    let rest := [ofNumbers none (by decide) 9 []]
    (∀ each ∈ first :: rest, each.IsProper) ∧
      Text.Separated ((first :: rest).map text) ">=0.8.1 9".toList ∧
      ofPragma? ">=0.8.1 9" = some ⟨[⟨.greaterEq, 0, some 8, some 19, ""⟩]⟩ := by
  intro first rest
  have proper : ∀ each ∈ first :: rest, each.IsProper := by decide +kernel
  have apart : Text.Separated ((first :: rest).map text) (first.text ++ [' '] ++ ['9']) :=
    .cons first.text (by simp) (by simp [Text.isBlank, Text.blankCodes]) (.single ['9'])
  have separated : Text.Separated ((first :: rest).map text) ">=0.8.1 9".toList := apart
  have glued := (ofPragma?_of_separated proper separated).1
  exact ⟨proper, separated, glued.trans (by decide +kernel)⟩

/-- Two bare versions are read as one that is neither of them. -/
theorem ofPragma?_bare_versions :
    let written := [ofNumbers none (by decide) 1 [], ofNumbers none (by decide) 2 []]
    (∀ each ∈ written, each.IsProper) ∧ Text.Separated (written.map text) "1 2".toList ∧
      ofPragma? "1 2" = some ⟨[⟨.exact, 12, none, none, ""⟩]⟩ ∧
      ofPragma? "1 2" ≠ none ∧ ofPragma? "1 2" ≠ some ⟨written.map comparator⟩ := by
  intro written
  have separated : Text.Separated (written.map text) (['1'] ++ [' '] ++ ['2']) :=
    .cons ['1'] (by simp) (by simp [Text.isBlank, Text.blankCodes]) (.single ['2'])
  have read : ofPragma? "1 2" = some ⟨[⟨.exact, 12, none, none, ""⟩]⟩ := by decide +kernel
  refine ⟨by decide +kernel, separated, read, by rw [read]; simp, ?_⟩
  rw [read]
  decide +kernel

end VersionReq

end SolidityModel
