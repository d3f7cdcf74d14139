import SolidityModel.Proofs.Text.Numeral
import SolidityModel.Tree.Declaration

/-!
# Where definitions stand

A function or modifier has a location exactly where its node writes one that is
within bounds (`Callable.locates`): in the compact dialect three numbers between
colons, in the legacy one the pair of the first and the last index.  The numbers are
those that are written.  A node whose location cannot be read still defines what it
defines, without a location.
-/

namespace SolidityModel

/-! ## Parts between separators -/

theorem Text.splitAt_eq_splitOn (separator : Char) (chars : List Char) :
    splitAt separator chars = chars.splitOn separator := by
  induction chars with
  | nil => rfl
  | cons char rest ih =>
      rw [splitAt, ih, List.splitOn, List.splitOn, List.splitOnP_cons_eq_if_modifyHead]
      simp only [beq_iff_eq]
      split
      next => rfl
      next =>
        cases parts : List.splitOnP (· == separator) rest with
        | nil => exact absurd parts (List.splitOnP_ne_nil _ rest)
        | cons => rfl

/-- A computation succeeds if its parts do, one after the other. -/
theorem bind_eq_ok_iff {ε α β : Type} {first : Except ε α} {next : α → Except ε β} {result : β} :
    (first >>= next) = .ok result ↔ ∃ value, first = .ok value ∧ next value = .ok result := by
  cases first <;> simp [bind, Except.bind]

namespace SourceRange

/-! ## Ranges between colons -/

/-- Whether the numbers of a range have a place in 64, 64 and 32 bits. -/
structure Fits (range : SourceRange) : Prop where
  start : range.start < Text.word64Count
  length : range.length < Text.word64Count
  file : range.file < Text.word32Count

theorem readPart_eq_ok_iff {part : Part} {parts rest : List (List Char)} {value : Int} :
    readPart part parts = .ok (value, rest) ↔
      ∃ text, parts = text :: rest ∧ Text.int64 text = .ok value := by
  cases parts with
  | nil => simp [readPart]
  | cons text others =>
      rw [readPart]
      cases read : Text.int64 text with
      | error fault => simp [read]
      | ok number => simp [read, and_comm]

/-- Three numbers are a range if none is negative and the last has 32 bits. -/
theorem check_eq_ok_iff {start length file : Int} {range : SourceRange} :
    (if start < 0 ∨ length < 0 ∨ file < 0 then throw .unresolved
      else if Text.word32Count ≤ file then throw (.outOfRange .file)
      else pure ⟨start.toNat, length.toNat, file.toNat⟩ : Except ParseError SourceRange) =
        .ok range ↔
      start = range.start ∧ length = range.length ∧ file = range.file ∧
        range.file < Text.word32Count := by
  split
  next negative =>
    simp only [throw, throwThe, MonadExceptOf.throw, reduceCtorEq, false_iff]
    omega
  next =>
    split
    next tooGreat =>
      simp only [throw, throwThe, MonadExceptOf.throw, reduceCtorEq, false_iff]
      omega
    next =>
      cases range
      simp only [pure, Except.pure, Except.ok.injEq, mk.injEq]
      omega

/-- A text in which the first three parts between colons are the numbers of a range,
as integers of 64 bits, the third of them below `2 ^ 32`. -/
def WrittenBy (range : SourceRange) (text : String) : Prop :=
  ∃ start length file more, text.toList.splitOn ':' = start :: length :: file :: more ∧
    Text.WritesInt64 start range.start ∧ Text.WritesInt64 length range.length ∧
    Text.WritesInt64 file range.file ∧ range.file < Text.word32Count

/-- A range is read from the texts that write it. -/
theorem parse_eq_ok_iff {text : String} {range : SourceRange} :
    parse text = .ok range ↔ range.WrittenBy text := by
  rw [parse, Text.splitAt_eq_splitOn]
  simp only [bind_eq_ok_iff, Prod.exists, readPart_eq_ok_iff, check_eq_ok_iff, WrittenBy,
    Text.int64_eq_ok_iff]
  constructor
  · rintro ⟨_, _, ⟨start, parts, startIs⟩, _, _, ⟨length, rfl, lengthIs⟩, _, more,
      ⟨file, rfl, fileIs⟩, rfl, rfl, rfl, small⟩
    exact ⟨start, length, file, more, parts, startIs, lengthIs, fileIs, small⟩
  · rintro ⟨start, length, file, more, parts, startIs, lengthIs, fileIs, small⟩
    exact ⟨_, _, ⟨start, parts, startIs⟩, _, _, ⟨length, rfl, lengthIs⟩, _, more,
      ⟨file, rfl, fileIs⟩, rfl, rfl, rfl, small⟩

/-- The text of a range. -/
def written (range : SourceRange) : String :=
  Nat.repr range.start ++ ":" ++ Nat.repr range.length ++ ":" ++ Nat.repr range.file

/-- The text of a range writes it, unless one of its numbers is too great. -/
theorem writtenBy_written {range : SourceRange} (start : range.start < Text.int64Magnitude)
    (length : range.length < Text.int64Magnitude) (file : range.file < Text.word32Count) :
    range.WrittenBy range.written := by
  have writes : ∀ number < Text.int64Magnitude,
      Text.WritesInt64 (Nat.toDigits 10 number) (number : Int) := by
    intro number small
    have plain := Text.WritesInteger.plain (Numeral.ofNat number)
    rw [Numeral.value_ofNat] at plain
    exact ⟨plain, by omega, by omega⟩
  have narrower : Text.word32Count ≤ Text.int64Magnitude := by decide
  refine ⟨_, _, _, [], ?_, writes _ start, writes _ length,
    writes _ (Nat.lt_of_lt_of_le file narrower), file⟩
  have noColon : ∀ part ∈ [range.start, range.length, range.file].map (Nat.toDigits 10),
      ':' ∉ part := by
    intro part isPart member
    rcases List.mem_map.mp isPart with ⟨number, -, rfl⟩
    exact absurd ((Numeral.ofNat number).isDigit_of_mem ':' member) (by decide)
  have spelled : range.written.toList =
      [':'].intercalate ([range.start, range.length, range.file].map (Nat.toDigits 10)) := by
    simp [written]
  rw [spelled, List.splitOn_intercalate ':' noColon (by simp)]
  rfl

/-! ## Ranges from a first to a last index -/

theorem ofInclusive?_eq_some_iff {first last : Nat} {range : SourceRange} :
    ofInclusive? first last = some range ↔
      first ≤ last ∧ last - first < Text.word64Count - 1 ∧
        range.start = first ∧ range.file = 0 ∧ range.start + range.length = last + 1 := by
  have positive : 0 < Text.word64Count := by decide
  rw [ofInclusive?]
  split
  next outside =>
    simp only [reduceCtorEq, false_iff]
    omega
  next inside =>
    cases range
    simp only [Option.some.injEq, mk.injEq]
    omega

end SourceRange

/-! ## Locations in nodes -/

theorem Json.textField?_eq_some_iff {node : Json} {name text : String} :
    node.textField? name = some text ↔ node.field? name = some (.string text) := by
  rw [textField?, Option.bind_eq_some_iff]
  constructor
  · rintro ⟨value, found, isText⟩
    cases value <;> cases isText
    exact found
  · exact fun found => ⟨_, found, rfl⟩

theorem Json.items_eq_nil_or (node : Json) (name : String) :
    node.items name = [] ∨ node.field? name = some (.array (node.items name)) := by
  rw [items]
  cases found : node.field? name with
  | none => exact .inl rfl
  | some value =>
      cases value with
      | array values => exact .inr rfl
      | _ => exact .inl rfl

namespace Callable

theorem index?_eq_some_iff {value : Json} {number : Nat} :
    index? value = some number ↔ ∃ numeral : Numeral,
      value = .number (String.ofList numeral.digits) ∧ numeral.value = number ∧
        number < Text.word64Count := by
  cases value with
  | number text =>
      rw [index?, Text.word64?_eq_some_iff]
      simp only [Json.number.injEq, ← String.toList_inj, String.toList_ofList]
  | _ => simp [index?]

/-- The field of a node with the location. -/
def locationField : Dialect → String
  | .legacy => "range"
  | .compact => "src"

/-- A node that writes a location: in the legacy dialect a first and a last index of 64
bits, and the number of indices from the one to the other has 64 bits too. -/
def Locates (dialect : Dialect) (node : Json) (range : SourceRange) : Prop :=
  match dialect with
  | .legacy => ∃ first last : Numeral,
      node.field? "range" = some (.array [.number (String.ofList first.digits),
        .number (String.ofList last.digits)]) ∧
      first.value < Text.word64Count ∧ last.value < Text.word64Count ∧
      first.value ≤ last.value ∧ last.value - first.value < Text.word64Count - 1 ∧
      range.start = first.value ∧ range.file = 0 ∧ range.start + range.length = last.value + 1
  | .compact => ∃ text, node.field? "src" = some (.string text) ∧ range.WrittenBy text

/-- A pair of indices is read from an array of two. -/
theorem mapM_index?_eq_some_iff {node : Json} {first last : Nat} :
    (node.items "range").mapM index? = some [first, last] ↔
      ∃ head tail, node.field? "range" = some (.array [head, tail]) ∧
        index? head = some first ∧ index? tail = some last := by
  constructor
  · intro read
    rcases Json.items_eq_nil_or node "range" with none | found
    · rw [none] at read
      cases read
    · generalize node.items "range" = values at read found
      rcases values with _ | ⟨head, _ | ⟨tail, _ | ⟨third, more⟩⟩⟩
      all_goals simp [Option.bind_eq_some_iff] at read
      exact ⟨head, tail, found, read⟩
  · rintro ⟨head, tail, found, headIs, tailIs⟩
    simp [Json.items, found, Json.items?, headIs, tailIs]

theorem rangeOfNode?_eq_some_iff {dialect : Dialect} {node : Json} {range : SourceRange} :
    rangeOfNode? dialect node = some range ↔ Locates dialect node range := by
  cases dialect with
  | compact =>
      simp only [rangeOfNode?, Locates, Option.bind_eq_some_iff, Json.textField?_eq_some_iff,
        Text.toOption_eq_some_iff, SourceRange.parse_eq_ok_iff]
  | legacy =>
      have ofPair : rangeOfNode? .legacy node = some range ↔ ∃ first last,
          (node.items "range").mapM index? = some [first, last] ∧
            SourceRange.ofInclusive? first last = some range := by
        rw [rangeOfNode?]
        split <;> simp_all
      simp only [ofPair, mapM_index?_eq_some_iff, index?_eq_some_iff,
        SourceRange.ofInclusive?_eq_some_iff, Locates]
      constructor
      · rintro ⟨_, _, ⟨_, _, found, ⟨first, rfl, rfl, firstSmall⟩, last, rfl, rfl, lastSmall⟩,
          inside⟩
        exact ⟨first, last, found, firstSmall, lastSmall, inside⟩
      · rintro ⟨first, last, found, firstSmall, lastSmall, inside⟩
        exact ⟨_, _, ⟨_, _, found, ⟨first, rfl, rfl, firstSmall⟩, last, rfl, rfl, lastSmall⟩,
          inside⟩

/-- A location that is read is the numbers that are written, none of them wrapped
around. -/
theorem fits_of_locates {dialect : Dialect} {node : Json} {range : SourceRange}
    (located : Locates dialect node range) : range.Fits := by
  have narrower : Text.int64Magnitude ≤ Text.word64Count := by decide
  cases dialect with
  | legacy =>
      rcases located with
        ⟨first, last, -, firstSmall, lastSmall, ordered, inside, start, file, stop⟩
      have positive : 0 < Text.word32Count := by decide
      exact ⟨by omega, by omega, by omega⟩
  | compact =>
      rcases located with ⟨text, -, start, length, file, more, -, startIs, lengthIs, -, fileSmall⟩
      have startSmall := startIs.below
      have lengthSmall := lengthIs.below
      exact ⟨by omega, by omega, fileSmall⟩

/-! ## Nodes without a readable location -/

/-- The kind of the function or modifier that a node defines. -/
def kindOfNode? (dialect : Dialect) (node : Json) : Option CallableKind :=
  if dialect.kind? node = some "FunctionDefinition" then
    some (CallableKind.ofFunctionNode dialect node)
  else if dialect.kind? node = some "ModifierDefinition" then some .modifier
  else none

/-- The names that a node can give to what it defines.  A function or modifier needs one
that is declared and not empty, and any other callable has the name of its kind. -/
inductive Names (node : Json) : CallableKind → String → Prop where
  | declared {kind : CallableKind} {name : String} (named : kind = .function ∨ kind = .modifier)
      (found : node.field? "name" = some (.string name)) (nonempty : name ≠ "") :
      Names node kind name
  | special {kind : CallableKind} (notFunction : kind ≠ .function)
      (notModifier : kind ≠ .modifier) :
      Names node kind kind.keyword

theorem nameOfNode?_of_names {node : Json} {kind : CallableKind} {name : String}
    (names : Names node kind name) : nameOfNode? kind node = some name := by
  cases names with
  | declared named found nonempty =>
      have text : node.textField? "name" = some name := Json.textField?_eq_some_iff.mpr found
      have isNamed : kind.isNamed = true := by simpa [CallableKind.isNamed] using named
      rw [nameOfNode?, if_pos isNamed, text, Option.filter_some, if_pos (by simpa using nonempty)]
  | special notFunction notModifier =>
      rw [nameOfNode?, if_neg (by simp [CallableKind.isNamed, notFunction, notModifier])]

variable {dialect : Dialect} {node other : Json} {kind : CallableKind}

theorem listOfNode_of_kindOfNode? (isCallable : kindOfNode? dialect node = some kind) :
    Member.listOfNode dialect node = ((ofNode? dialect kind node).map .callable).toList := by
  rw [kindOfNode?] at isCallable
  split at isCallable
  next isFunction =>
    cases isCallable
    simp [Member.listOfNode, isFunction]
  next =>
    split at isCallable
    next isModifier =>
      cases isCallable
      simp [Member.listOfNode, isModifier]
    next => cases isCallable

/-- The functions and modifiers among the members of contracts. -/
theorem mem_listOfNode_iff {definition : Callable} :
    Member.callable definition ∈ Member.listOfNode dialect node ↔
      ∃ kind, kindOfNode? dialect node = some kind ∧
        ofNode? dialect kind node = some definition := by
  cases isCallable : kindOfNode? dialect node with
  | some kind => simp [listOfNode_of_kindOfNode? isCallable]
  | none =>
      simp only [reduceCtorEq, false_and, exists_false, iff_false]
      rw [Member.listOfNode]
      cases kindIs : dialect.kind? node with
      | none => exact List.not_mem_nil
      | some tag =>
          have notFunction : tag ≠ "FunctionDefinition" := by
            rintro rfl
            simp [kindOfNode?, kindIs] at isCallable
          have notModifier : tag ≠ "ModifierDefinition" := by
            rintro rfl
            simp [kindOfNode?, kindIs] at isCallable
          simp only [notFunction, notModifier, if_false]
          split_ifs <;> simp

theorem range?_eq_of_mem_listOfNode {definition : Callable}
    (member : .callable definition ∈ Member.listOfNode dialect node) :
    definition.range? = rangeOfNode? dialect node := by
  rcases mem_listOfNode_iff.mp member with ⟨kind, -, read⟩
  rcases Option.map_eq_some_iff.mp read with ⟨name, -, rfl⟩
  rfl

/-- Nodes that agree in every field but the one with the location. -/
def AgreeElsewhere (dialect : Dialect) (node other : Json) : Prop :=
  ∀ name, name ≠ locationField dialect → other.field? name = node.field? name

theorem textField?_congr (agree : AgreeElsewhere dialect node other) {name : String}
    (elsewhere : name ≠ locationField dialect) : other.textField? name = node.textField? name := by
  rw [Json.textField?, Json.textField?, agree name elsewhere]

theorem flag_congr (agree : AgreeElsewhere dialect node other) {name : String}
    (elsewhere : name ≠ locationField dialect) : other.flag name = node.flag name := by
  rw [Json.flag, Json.flag, agree name elsewhere]

theorem ofFunctionNode_congr (agree : AgreeElsewhere dialect node other) :
    CallableKind.ofFunctionNode dialect other = CallableKind.ofFunctionNode dialect node := by
  cases dialect with
  | legacy =>
      rw [CallableKind.ofFunctionNode, CallableKind.ofFunctionNode, agree "name" (by decide),
        textField?_congr agree (by decide), flag_congr agree (by decide),
        flag_congr agree (by decide), flag_congr agree (by decide)]
  | compact =>
      rw [CallableKind.ofFunctionNode, CallableKind.ofFunctionNode,
        textField?_congr agree (by decide), textField?_congr agree (by decide),
        flag_congr agree (by decide)]

theorem kindOfNode?_congr (agree : AgreeElsewhere dialect node other) :
    kindOfNode? dialect other = kindOfNode? dialect node := by
  have kindSame : dialect.kind? other = dialect.kind? node :=
    textField?_congr agree (by cases dialect <;> decide)
  rw [kindOfNode?, kindOfNode?, kindSame, ofFunctionNode_congr agree]

/-- Whatever stands in the field with the location, a node defines the same function or
modifier. -/
theorem exists_ofNode?_of_agreeElsewhere (agree : AgreeElsewhere dialect node other)
    {kind : CallableKind} {definition : Callable}
    (read : ofNode? dialect kind node = some definition) :
    ∃ kept, ofNode? dialect kind other = some kept ∧ kept.name = definition.name ∧
      kept.kind = definition.kind ∧ kept.body? = definition.body? := by
  have nameSame : nameOfNode? kind other = nameOfNode? kind node := by
    rw [nameOfNode?, nameOfNode?, textField?_congr agree (by cases dialect <;> decide)]
  have bodySame : other.child? "body" = node.child? "body" := by
    rw [Json.child?, Json.child?, agree "body" (by cases dialect <;> decide)]
  rcases Option.map_eq_some_iff.mp read with ⟨name, nameIs, rfl⟩
  rw [ofNode?, nameSame, nameIs, bodySame]
  exact ⟨_, rfl, rfl, rfl, rfl⟩

/-- What holds of the locations of functions and modifiers. -/
structure ReadsLocations (dialect : Dialect) : Prop where
  /-- A node of a function or modifier that gives it a name defines it, whatever stands
  where its location should. -/
  defined : ∀ node kind name, kindOfNode? dialect node = some kind → Names node kind name →
    ∃ definition, Member.listOfNode dialect node = [.callable definition] ∧
      definition.name = name ∧ definition.kind = kind ∧
      definition.body? = (node.child? "body").map (Block.ofNode dialect)
  /-- A definition has the location that its node writes. -/
  range_iff : ∀ node definition, .callable definition ∈ Member.listOfNode dialect node →
    ∀ range, definition.range? = some range ↔ Locates dialect node range
  /-- No number of a location is wrapped around or cut off. -/
  fits : ∀ node definition, .callable definition ∈ Member.listOfNode dialect node →
    ∀ range, definition.range? = some range → range.Fits
  /-- The text of a range is read as the range. -/
  reads_written : ∀ range : SourceRange, range.start < Text.int64Magnitude →
    range.length < Text.int64Magnitude → range.file < Text.word32Count →
      SourceRange.parse range.written = .ok range
  /-- A definition is kept whatever stands where its location should. -/
  kept : ∀ node definition, .callable definition ∈ Member.listOfNode dialect node →
    ∀ other, AgreeElsewhere dialect node other →
      ∃ kept, .callable kept ∈ Member.listOfNode dialect other ∧ kept.name = definition.name ∧
        kept.kind = definition.kind ∧ kept.body? = definition.body?

/-- Locations are read in full or not at all, and never decide what is defined. -/
theorem readsLocations (dialect : Dialect) : ReadsLocations dialect where
  defined := by
    intro node kind name isCallable names
    rw [listOfNode_of_kindOfNode? isCallable, ofNode?, nameOfNode?_of_names names]
    exact ⟨_, rfl, rfl, rfl, rfl⟩
  range_iff := by
    intro node definition member range
    rw [range?_eq_of_mem_listOfNode member]
    exact rangeOfNode?_eq_some_iff
  fits := by
    intro node definition member range found
    rw [range?_eq_of_mem_listOfNode member] at found
    exact fits_of_locates (rangeOfNode?_eq_some_iff.mp found)
  reads_written := by
    intro range start length file
    exact SourceRange.parse_eq_ok_iff.mpr (SourceRange.writtenBy_written start length file)
  kept := by
    intro node definition member other agree
    rcases mem_listOfNode_iff.mp member with ⟨kind, kindIs, read⟩
    rcases exists_ofNode?_of_agreeElsewhere agree read with ⟨kept, keptRead, same⟩
    exact ⟨kept, mem_listOfNode_iff.mpr ⟨kind, (kindOfNode?_congr agree).trans kindIs, keptRead⟩,
      same⟩

/-- A function that is called `set`, with a value where its location should be. -/
def setterNode (dialect : Dialect) (location : Json) : Json :=
  .object [(dialect.kindField, .string "FunctionDefinition"), ("name", .string "set"),
    (locationField dialect, location)]

/-- The node defines `set`, and at this location or at none. -/
def DefinesSetter (dialect : Dialect) (location : Json) (range? : Option SourceRange) : Prop :=
  ∃ definition, Member.listOfNode dialect (setterNode dialect location) = [.callable definition] ∧
    definition.name = "set" ∧ definition.kind = .function ∧ definition.range? = range?

theorem ReadsLocations.definesSetter (reads : ReadsLocations dialect) (location : Json)
    {range? : Option SourceRange}
    (located : rangeOfNode? dialect (setterNode dialect location) = range?) :
    DefinesSetter dialect location range? := by
  have isFunction : kindOfNode? dialect (setterNode dialect location) = some .function := by
    cases dialect <;> rfl
  have called : Names (setterNode dialect location) .function "set" :=
    .declared (.inl rfl) (by cases dialect <;> rfl) (by decide)
  rcases reads.defined _ _ _ isFunction called with ⟨definition, alone, name, kind, -⟩
  have member : .callable definition ∈
      Member.listOfNode dialect (setterNode dialect location) := by
    rw [alone]
    exact List.mem_singleton_self _
  refine ⟨definition, alone, name, kind, ?_⟩
  rw [← located]
  exact Option.ext fun range =>
    (reads.range_iff _ _ member range).trans rangeOfNode?_eq_some_iff.symm

/-- A sign and further parts do no harm to a location, and numbers that are too great or in
the wrong order, or a location of the other dialect, leave the function without one. -/
theorem setterNode_readsLocations :
    let pair (first last : String) : Json := .array [.number first, .number last]
    (DefinesSetter .compact (.string "+12:-0:4294967295:x") (some ⟨12, 0, 4294967295⟩) ∧
      DefinesSetter .compact (.string "12:0:4294967296") none ∧
      DefinesSetter .compact (.string "12:-5:0") none ∧
      DefinesSetter .compact (pair "12" "16") none) ∧
    (DefinesSetter .legacy (pair "1" "18446744073709551615")
        (some ⟨1, 18446744073709551615, 0⟩) ∧
      DefinesSetter .legacy (pair "0" "18446744073709551615") none ∧
      DefinesSetter .legacy (pair "16" "12") none ∧
      DefinesSetter .legacy (.string "12:5:0") none) ∧
    SourceRange.parse (SourceRange.written ⟨12, 5, 0⟩) = .ok ⟨12, 5, 0⟩ := by
  intro pair
  have compact := readsLocations .compact
  have legacy := readsLocations .legacy
  refine ⟨⟨?_, ?_, ?_, ?_⟩, ⟨?_, ?_, ?_, ?_⟩,
    compact.reads_written _ (by decide) (by decide) (by decide)⟩
  · exact compact.definesSetter _ (by decide +kernel)
  · exact compact.definesSetter _ (by decide +kernel)
  · exact compact.definesSetter _ (by decide +kernel)
  · exact compact.definesSetter _ (by decide +kernel)
  · exact legacy.definesSetter _ (by decide +kernel)
  · exact legacy.definesSetter _ (by decide +kernel)
  · exact legacy.definesSetter _ (by decide +kernel)
  · exact legacy.definesSetter _ (by decide +kernel)

end Callable

end SolidityModel
