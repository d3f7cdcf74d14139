import SolidityModel.Config
import SolidityModel.Proofs.Toml.Strings

/-!
# Documents with a line for each key

A document whose lines each set a key of its own is read as the table of these keys,
whatever the strings on its lines hold (`Toml.parse?_of_writesFields`).  The text of a
configuration is such a document, so that it is read back (`Config.ofToml_toToml`).
-/

namespace SolidityModel

open Toml.Parser

namespace Toml

/-! ## Lines -/

/-- A text that is read as a value to the end of its line, and begins where it does. -/
structure WritesValue (text : List Char) (value : Value) : Prop where
  exists_eq_cons : ∃ first more, text = first :: more ∧ isBlank first = false
  read : ∀ bound rest,
    value? bound depthLimit (text ++ '\n' :: rest) = some (value, '\n' :: rest)

/-- The line that sets a key to what a text writes. -/
def lineOf (key : String) (text : List Char) : List Char :=
  key.toList ++ ' ' :: '=' :: ' ' :: text ++ ['\n']

/-- Whether a key needs no quotes. -/
def isBareKey (key : String) : Bool :=
  !key.toList.isEmpty && key.toList.all isBareKeyChar

/-- A document that has a line for each field. -/
inductive WritesFields : List Char → List (String × Value) → Prop
  | nil : WritesFields [] []
  | line {key : String} {text rest : List Char} {value : Value} {fields : List (String × Value)}
      (bare : isBareKey key = true) (writes : WritesValue text value)
      (later : WritesFields rest fields) :
      WritesFields (lineOf key text ++ rest) ((key, value) :: fields)

theorem writesValue_writeString (text : String) :
    WritesValue (writeString text).toList (.string text) where
  exists_eq_cons := by
    rw [writeString, String.toList_ofList]
    cases Printer.formOf text.toList <;> exact ⟨_, _, rfl, by decide⟩
  read := by
    intro bound rest
    have read := stringChars?_written text.toList rest
    rw [writeString, String.toList_ofList]
    have opened : ∃ more,
        Printer.written text.toList (Printer.formOf text.toList) = '"' :: more ∨
          Printer.written text.toList (Printer.formOf text.toList) = '\'' :: more := by
      cases Printer.formOf text.toList with
      | quotes | longQuotes => exact ⟨_, .inl rfl⟩
      | apostrophes | longApostrophes => exact ⟨_, .inr rfl⟩
    rcases opened with ⟨more, opened | opened⟩
    all_goals
      rw [opened, List.cons_append] at read ⊢
      rw [value?, read]
      exact congrArg (fun text => some (Value.string text, '\n' :: rest)) String.ofList_toList

/-- Truth values are written as words that end with their lines. -/
theorem writesValue_boolWord (value : Bool) :
    WritesValue (Config.boolWord value).toList (.boolean value) where
  exists_eq_cons := by cases value <;> exact ⟨_, _, rfl, by decide⟩
  read := by
    intro bound rest
    cases value
    · rfl
    · rfl

theorem ne_of_isBareKeyChar {char other : Char} (bare : isBareKeyChar char = true)
    (notBare : isBareKeyChar other = false) : char ≠ other := by
  rintro rfl
  cases bare.symm.trans notBare

theorem isBlank_of_isBareKeyChar {char : Char} (bare : isBareKeyChar char = true) :
    isBlank char = false := by
  rw [isBlank, decide_eq_false (ne_of_isBareKeyChar bare (by decide)),
    decide_eq_false (ne_of_isBareKeyChar bare (by decide)), Bool.or_false]

section Keys

variable {key : String} (bare : isBareKey key = true)

include bare

theorem exists_toList_eq_cons : ∃ first more, key.toList = first :: more ∧
    isBareKeyChar first = true := by
  rw [isBareKey, Bool.and_eq_true, List.all_eq_true] at bare
  cases chars : key.toList with
  | nil => simp [chars] at bare
  | cons first more => exact ⟨first, more, rfl, bare.2 first (by simp [chars])⟩

theorem simpleKey?_of_isBareKey (rest : List Char) :
    simpleKey? (key.toList ++ ' ' :: rest) = some (key, ' ' :: rest) := by
  have all : ∀ char ∈ key.toList, isBareKeyChar char = true :=
    List.all_eq_true.mp (Bool.and_eq_true_iff.mp bare).2
  have taken : (key.toList ++ ' ' :: rest).takeWhile isBareKeyChar = key.toList := by
    rw [List.takeWhile_append_of_pos all, List.takeWhile_cons_of_neg (by decide), List.append_nil]
  have left : (key.toList ++ ' ' :: rest).dropWhile isBareKeyChar = ' ' :: rest := by
    rw [List.dropWhile_append_of_pos all, List.dropWhile_cons_of_neg (by decide)]
  rcases exists_toList_eq_cons bare with ⟨first, more, chars, isBare⟩
  rw [simpleKey?, taken, left, String.ofList_toList]
  · simp [chars]
  · intro _ starts
    rw [chars] at starts
    exact ne_of_isBareKeyChar isBare (by decide) (List.cons.inj starts).1
  · intro _ starts
    rw [chars] at starts
    exact ne_of_isBareKeyChar isBare (by decide) (List.cons.inj starts).1

theorem path?_of_isBareKey (bound : Nat) (rest : List Char) :
    path? (bound + 1) (key.toList ++ ' ' :: '=' :: rest) = some ([key], '=' :: rest) := by
  rcases exists_toList_eq_cons bare with ⟨first, more, chars, isBare⟩
  have begins : skipBlank (key.toList ++ ' ' :: '=' :: rest) =
      key.toList ++ ' ' :: '=' :: rest := by
    rw [chars]
    exact List.dropWhile_cons_of_neg (by simp [isBlank_of_isBareKeyChar isBare])
  have sign : skipBlank (' ' :: '=' :: rest) = '=' :: rest := rfl
  rw [path?, key?, begins, simpleKey?_of_isBareKey bare]
  simp only [sign]
  rfl

theorem statement?_lineOf {text : List Char} {value : Value} (writes : WritesValue text value)
    (bound : Nat) (rest : List Char) :
    statement? (bound + 1) (lineOf key text ++ rest) = some (.pair [key] value, rest) := by
  rcases writes.exists_eq_cons with ⟨start, after, textIs, notBlank⟩
  have line : lineOf key text ++ rest =
      key.toList ++ ' ' :: '=' :: ' ' :: (text ++ '\n' :: rest) := by
    simp [lineOf]
  have atValue : skipBlank (' ' :: (text ++ '\n' :: rest)) = text ++ '\n' :: rest := by
    rw [textIs, List.cons_append, skipBlank, List.dropWhile_cons_of_pos (by decide),
      List.dropWhile_cons_of_neg (by simp [notBlank])]
  have read : pair? (some ∘ skipBlank) (value? (bound + 1) depthLimit) (bound + 1)
      (lineOf key text ++ rest) = some (([key], value), '\n' :: rest) := by
    have sign : after? '=' (skipBlank ('=' :: ' ' :: (text ++ '\n' :: rest))) =
        some (' ' :: (text ++ '\n' :: rest)) := rfl
    rw [line, pair?, path?_of_isBareKey bare]
    simp only [Option.bind_eq_bind, Option.bind_some, Function.comp_apply, sign, atValue,
      writes.read]
    rfl
  rcases exists_toList_eq_cons bare with ⟨first, more, chars, isBare⟩
  rw [statement?, read]
  · rfl
  all_goals
    intro _ starts
    rw [line, chars] at starts
    exact ne_of_isBareKeyChar isBare (by decide) (List.cons.inj starts).1

end Keys

/-! ## Documents -/

/-- A document begins with a key, or it is empty. -/
theorem WritesFields.eq_nil_or {text : List Char} {fields : List (String × Value)}
    (writes : WritesFields text fields) :
    text = [] ∧ fields = [] ∨ ∃ first more, text = first :: more ∧ isBareKeyChar first = true := by
  cases writes with
  | nil => exact .inl ⟨rfl, rfl⟩
  | line bare =>
      rcases exists_toList_eq_cons bare with ⟨first, more, chars, isBare⟩
      exact .inr ⟨first, _, by rw [lineOf, chars]; rfl, isBare⟩

theorem WritesFields.length_le {text : List Char} {fields : List (String × Value)}
    (writes : WritesFields text fields) : fields.length ≤ text.length := by
  induction writes with
  | nil => exact Nat.le_refl 0
  | line _ _ _ ih =>
      simp only [lineOf, List.length_cons, List.length_append, List.length_nil]
      omega

theorem skipTrivia?_of_isBareKeyChar {first : Char} (bare : isBareKeyChar first = true)
    (more : List Char) : skipTrivia? false (first :: more) = some (first :: more) := by
  rw [skipTrivia?]
  · have noComment : first ≠ '#' := ne_of_isBareKeyChar bare (by decide)
    simp [isBlank_of_isBareKeyChar bare, noComment]
  · exact fun _ isReturn => absurd isReturn (ne_of_isBareKeyChar bare (by decide))
  · exact ne_of_isBareKeyChar bare (by decide)

/-- Every line is read as the pair of its key and its value. -/
theorem statements?_of_writesFields (bound : Nat) {text : List Char}
    {fields : List (String × Value)} (writes : WritesFields text fields) {left : Nat}
    (enough : fields.length < left) :
    statements? (bound + 1) left text =
      some (fields.map fun (key, value) => .pair [key] value) := by
  induction writes generalizing left with
  | nil =>
      cases left with
      | zero => exact absurd enough (Nat.not_lt_zero _)
      | succ left => rfl
  | @line key text rest value fields bare writes later ih =>
      cases left with
      | zero => exact absurd enough (Nat.not_lt_zero _)
      | succ left =>
          have read := statement?_lineOf bare writes bound rest
          rcases (WritesFields.line bare writes later).eq_nil_or with ⟨_, none⟩ | found
          · cases none
          · rcases found with ⟨first, more, textIs, isBare⟩
            rw [textIs] at read ⊢
            rw [statements?, skipTrivia?_of_isBareKeyChar isBare]
            simp only [read, ih (Nat.lt_of_succ_lt_succ enough)]
            rfl

/-! ## Tables -/

namespace Table

/-- The nodes of fields that each hold a value. -/
def entriesOf (fields : List (String × Value)) : Entries :=
  fields.map fun (key, value) => (key, .value value)

theorem get?_eq_none {key : String} {entries : Entries} (absent : key ∉ entries.map Prod.fst) :
    entries.get? key = none := by
  induction entries with
  | nil => rfl
  | cons entry rest ih =>
      rw [List.map_cons, List.mem_cons, not_or] at absent
      rw [Entries.get?, if_neg absent.1, ih absent.2]

theorem set_of_not_mem {key : String} {entries : Entries} (absent : key ∉ entries.map Prod.fst)
    (node : Node) : entries.set key node = entries ++ [(key, node)] := by
  induction entries with
  | nil => rfl
  | cons entry rest ih =>
      rw [List.map_cons, List.mem_cons, not_or] at absent
      rw [Entries.set, if_neg absent.1, ih absent.2]
      rfl

theorem fieldsOf_entriesOf (fields : List (String × Value)) :
    fieldsOf (entriesOf fields) = fields := by
  induction fields with
  | nil => rfl
  | cons field rest ih =>
      rw [entriesOf, List.map_cons, fieldsOf, valueOf]
      exact congrArg _ ih

/-- A key that is new is put at the end of the outermost table. -/
theorem step?_pair {entries : Entries} {key : String} (absent : key ∉ entries.map Prod.fst)
    (value : Value) :
    step? ⟨entries, []⟩ (.pair [key] value) = some ⟨entries ++ [(key, .value value)], []⟩ := by
  rw [step?, changeAt?, assign?, get?_eq_none absent, set_of_not_mem absent]
  rfl

theorem foldlM_step?_pairs {entries : Entries} {fields : List (String × Value)}
    (distinct : (entries.map Prod.fst ++ fields.map Prod.fst).Nodup) :
    (fields.map fun (key, value) => Statement.pair [key] value).foldlM step? ⟨entries, []⟩ =
      some ⟨entries ++ entriesOf fields, []⟩ := by
  induction fields generalizing entries with
  | nil => simp [entriesOf]
  | cons field rest ih =>
      have absent : field.1 ∉ entries.map Prod.fst := fun member =>
        (List.nodup_append.mp distinct).2.2 _ member _ List.mem_cons_self rfl
      rw [List.map_cons, List.foldlM_cons, step?_pair absent, Option.bind_eq_bind, Option.bind_some,
        ih (by simpa using distinct), List.append_assoc]
      rfl

/-- Pairs with keys of their own build the table of these keys. -/
theorem ofStatements?_pairs {fields : List (String × Value)}
    (distinct : (fields.map Prod.fst).Nodup) :
    ofStatements? (fields.map fun (key, value) => .pair [key] value) = some fields := by
  rw [ofStatements?, foldlM_step?_pairs (by simpa using distinct), Option.map_some,
    List.nil_append, fieldsOf_entriesOf]

end Table

/-- A document with a line for each of the fields is read as their table. -/
theorem parse?_of_writesFields {text : String} {fields : List (String × Value)}
    (writes : WritesFields text.toList fields) (distinct : (fields.map Prod.fst).Nodup) :
    parse? text = some fields := by
  have noMark : skipByteOrderMark text.toList = text.toList := by
    rcases writes.eq_nil_or with ⟨empty, -⟩ | ⟨first, more, chars, isBare⟩
    · rw [empty]
      rfl
    · have notMark : first ≠ '\uFEFF' := ne_of_isBareKeyChar isBare (by decide)
      rw [chars, skipByteOrderMark]
      exact fun _ starts => notMark (List.cons.inj starts).1
  have read := statements?_of_writesFields text.toList.length writes
    (Nat.lt_succ_of_le writes.length_le)
  simp only [parse?, noMark, read, Option.bind_some, Table.ofStatements?_pairs distinct]

end Toml

/-! ## Configurations -/

namespace Config

/-- The fields of the table of a configuration. -/
def fields (config : Config) : List (String × Toml.Value) :=
  (scopeKey, .string config.scope.key) :: (parallelKey, .boolean config.parallel) ::
    config.focus?.toList.map fun focus => (focusKey, .string focus)

theorem toList_line (key value : String) :
    (line key value).toList = Toml.lineOf key value.toList := by
  simp [line, Toml.lineOf]

theorem writesFields_toToml (config : Config) :
    Toml.WritesFields config.toToml.toList config.fields := by
  have lines : config.toToml.toList =
      Toml.lineOf scopeKey (Toml.writeString config.scope.key).toList ++
        (Toml.lineOf parallelKey (boolWord config.parallel).toList ++
          config.focus?.toList.flatMap fun focus =>
            Toml.lineOf focusKey (Toml.writeString focus).toList) := by
    cases focus : config.focus? <;> simp [toToml, toList_line, focus]
  rw [lines]
  refine .line (by decide) (Toml.writesValue_writeString _)
    (.line (by decide) (Toml.writesValue_boolWord _) ?_)
  cases config.focus? with
  | none => exact .nil
  | some focus => exact .line (by decide) (Toml.writesValue_writeString focus) .nil

theorem nodup_fields (config : Config) : (config.fields.map Prod.fst).Nodup := by
  cases focus : config.focus? <;> simp [fields, focus, scopeKey, parallelKey, focusKey]

theorem setting_of_found {α : Type} {fields : List (String × Toml.Value)} {key : String}
    {value : Toml.Value} {result : α} (missing : α) {read? : Toml.Value → Option α}
    (found : Toml.Value.fieldIn? key fields = some value) (read : read? value = some result) :
    setting fields key missing read? = .ok result := by
  rw [setting, found]
  simp only [read]

theorem ofFields_fields (config : Config) : ofFields config.fields = .ok config := by
  have scope : setting config.fields scopeKey default.scope scopeOf? = .ok config.scope := by
    refine setting_of_found _ rfl ?_
    cases config.scope <;> decide
  have parallel : setting config.fields parallelKey default.parallel boolOf? =
      .ok config.parallel := setting_of_found _ rfl rfl
  have focus : setting config.fields focusKey default.focus?
      (fun value => (textOf? value).map some) = .ok config.focus? := by
    cases focusIs : config.focus? with
    | none => simp [setting, fields, focusIs, Toml.Value.fieldIn?, scopeKey, parallelKey, focusKey,
        default]
    | some focus =>
        exact setting_of_found _ (by rw [fields, focusIs]; rfl) rfl
  rw [ofFields, scope, parallel, focus]
  rfl

/-- A configuration is read back from its text. -/
theorem ofToml_toToml (config : Config) : ofToml config.toToml = .ok config := by
  rw [ofToml, Toml.parse?_of_writesFields config.writesFields_toToml config.nodup_fields]
  exact config.ofFields_fields

end Config

end SolidityModel
