import Mathlib.Data.List.Basic
import Mathlib.Tactic.SplitIfs
import SolidityModel.Proofs.Tree.Types
import SolidityModel.Tree.SourceUnit

/-!
# Stray values and braces

The same source reaches the readers in trees of different style.  Some trees have
stray values without a kind, such as a lone semicolon, in the lists of statements and
of declarations, and a body of one statement may stand in braces or without them.  A
restyling (`Dialect.Restyles`) is one such difference at any depth of a tree, and one of
a unit (`SourceUnit.Restyles`) may also be a value between its nodes that is no node.  No
expression, type, statement or block is read differently after one.
-/

namespace SolidityModel

namespace Dialect

/-- The fields with the lists in which stray values may stand. -/
def listFields (dialect : Dialect) : List String :=
  ["statements", dialect.membersField]

/-- The fields with the bodies that may stand in braces or without them. -/
def bodyFields (dialect : Dialect) : List String :=
  ["body", dialect.thenField, dialect.elseField]

/-- The fields in which style may show. -/
def styleFields (dialect : Dialect) : List String :=
  dialect.listFields ++ dialect.bodyFields

/-- Whether a field is one in which style shows in neither dialect. -/
def isPlain (name : String) : Bool :=
  !(legacy.styleFields ++ compact.styleFields).contains name

/-- Whether a node stands for the statements between two braces. -/
def IsBlock (dialect : Dialect) (node : Json) : Prop :=
  dialect.kind? node = some "Block" ∨ dialect.kind? node = some "UncheckedBlock"

instance (dialect : Dialect) (node : Json) : Decidable (dialect.IsBlock node) :=
  inferInstanceAs (Decidable (_ ∨ _))

mutual

/-- A value and what becomes of it by one change of style inside of it. -/
inductive Restyles (dialect : Dialect) : Json → Json → Prop
  | item {before after : List Json} {value value' : Json}
      (step : Restyles dialect value value') :
      Restyles dialect (.array (before ++ value :: after)) (.array (before ++ value' :: after))
  | field {before after : List (String × Json)} {name : String} {value value' : Json}
      (step : RestylesField dialect name value value') :
      Restyles dialect (.object (before ++ (name, value) :: after))
        (.object (before ++ (name, value') :: after))

/-- What stands in a field and what becomes of it by one change of style there. -/
inductive RestylesField (dialect : Dialect) : String → Json → Json → Prop
  /-- A value without a kind is put into a list. -/
  | stray {name : String} {before after : List Json} {value : Json}
      (isList : name ∈ dialect.listFields) (untagged : dialect.kind? value = none) :
      RestylesField dialect name (.array (before ++ after)) (.array (before ++ value :: after))
  /-- Braces are put around a body.  For a body that is missing `null` may stand, which
  takes no braces. -/
  | braces {name : String} {body block : Json} (isBody : name ∈ dialect.bodyFields)
      (present : body ≠ .null) (bare : ¬ dialect.IsBlock body)
      (kind : dialect.kind? block = some "Block")
      (statements : block.field? "statements" = some (.array [body])) :
      RestylesField dialect name body block
  | within {name : String} {value value' : Json} (step : Restyles dialect value value') :
      RestylesField dialect name value value'

end

end Dialect

/-- The nodes of a unit and what becomes of them by one change of style: a value that is
no node is put between them, or the style of one of them changes. -/
inductive SourceUnit.Restyles : List Json → List Json → Prop
  | stray {before after : List Json} {value : Json} (noNode : Dialect.detect? value = none) :
      Restyles (before ++ after) (before ++ value :: after)
  | node {before after : List Json} {dialect : Dialect} {node node' : Json}
      (tagged : Dialect.detect? node = some dialect) (step : dialect.Restyles node node') :
      Restyles (before ++ node :: after) (before ++ node' :: after)

/-! ## What a change of style leaves of a node -/

namespace Json

/-- Whether a value is a list or an object. -/
def isContainer : Json → Bool
  | array _ => true
  | object _ => true
  | _ => false

/-- A list or an object is no text. -/
theorem text?_of_isContainer {value : Json} (isContainer : value.isContainer = true) :
    value.text? = none := by
  cases value <;> trivial

/-- Of two lists of fields that differ in the value of one field, every name has the
same value in both, or else the values that differ. -/
theorem fieldIn?_replace (before after : List (String × Json)) (name : String)
    (value value' : Json) (other : String) :
    fieldIn? other (before ++ (name, value') :: after) =
        fieldIn? other (before ++ (name, value) :: after) ∨
      other = name ∧ fieldIn? other (before ++ (name, value) :: after) = some value ∧
        fieldIn? other (before ++ (name, value') :: after) = some value' := by
  induction before with
  | nil => by_cases same : other = name <;> simp [same]
  | cons entry rest ih =>
      rcases entry with ⟨first, kept⟩
      by_cases same : other = first
      · simp [same]
      · simpa [same] using ih

end Json

namespace Dialect

variable {dialect : Dialect} {node node' : Json}

theorem not_mem_styleFields {name : String} (plain : isPlain name = true) :
    name ∉ dialect.styleFields := by
  have neither : name ∉ legacy.styleFields ++ compact.styleFields := by
    simpa [isPlain] using plain
  rw [List.mem_append, not_or] at neither
  cases dialect with
  | legacy => exact neither.1
  | compact => exact neither.2

theorem Restyles.isContainer (step : dialect.Restyles node node') :
    node.isContainer = true ∧ node'.isContainer = true := by
  cases step <;> exact ⟨rfl, rfl⟩

/-- A field in which no style shows changes only on the inside. -/
theorem RestylesField.restyles {name : String} (step : dialect.RestylesField name node node')
    (plain : isPlain name = true) : dialect.Restyles node node' := by
  have noStyle : name ∉ dialect.styleFields := not_mem_styleFields plain
  rw [styleFields, List.mem_append, not_or] at noStyle
  cases step with
  | stray isList => exact absurd isList noStyle.1
  | braces isBody => exact absurd isBody noStyle.2
  | within step => exact step

theorem RestylesField.ne_null {name : String} (step : dialect.RestylesField name node node') :
    node ≠ .null ∧ node' ≠ .null := by
  cases step with
  | stray => exact ⟨nofun, nofun⟩
  | braces _ present _ kind =>
      refine ⟨present, ?_⟩
      rintro rfl
      cases kind
  | within step => cases step <;> exact ⟨nofun, nofun⟩

namespace Restyles

variable (step : dialect.Restyles node node') (name : String)

include step

/-- A change of style shows in one field at most. -/
theorem field?_eq_or : node'.field? name = node.field? name ∨
    ∃ value value', node.field? name = some value ∧ node'.field? name = some value' ∧
      dialect.RestylesField name value value' := by
  cases step with
  | item => exact .inl rfl
  | @field before after changed value value' step =>
      rcases Json.fieldIn?_replace before after changed value value' name with
        same | ⟨rfl, found, found'⟩
      · exact .inl same
      · exact .inr ⟨value, value', found, found', step⟩

/-- What is read from a field, if it is the same for all lists and objects. -/
theorem read_field? {α : Type} (plain : isPlain name = true) (read : Option Json → α)
    (same : ∀ value value' : Json, value.isContainer = true → value'.isContainer = true →
      read (some value') = read (some value)) :
    read (node'.field? name) = read (node.field? name) := by
  rcases step.field?_eq_or name with equal | ⟨value, value', found, found', inner⟩
  · rw [equal]
  · rcases (inner.restyles plain).isContainer with ⟨isContainer, isContainer'⟩
    rw [found, found', same value value' isContainer isContainer']

/-- What is read from a field, if nothing is read from lists and objects. -/
theorem bind_field? {α : Type} (plain : isPlain name = true) (read : Json → Option α)
    (blind : ∀ value : Json, value.isContainer = true → read value = none) :
    (node'.field? name).bind read = (node.field? name).bind read := by
  refine step.read_field? name plain (·.bind read) fun value value' isContainer isContainer' => ?_
  rw [Option.bind_some, Option.bind_some, blind value isContainer, blind value' isContainer']

theorem textField?_eq (plain : isPlain name = true) :
    node'.textField? name = node.textField? name :=
  step.bind_field? name plain Json.text? fun _ => Json.text?_of_isContainer

theorem scalarText?_eq (plain : isPlain name = true) :
    (node'.field? name).bind Json.scalarText? = (node.field? name).bind Json.scalarText? :=
  step.bind_field? name plain Json.scalarText? fun value isContainer => by cases value <;> trivial

theorem flag_eq (plain : isPlain name = true) : node'.flag name = node.flag name := by
  rw [Json.flag, Json.flag, step.bind_field? name plain Json.bool?
    fun value isContainer => by cases value <;> trivial]

theorem kind?_eq (tagged : Dialect) : tagged.kind? node' = tagged.kind? node :=
  step.textField?_eq tagged.kindField (by cases tagged <;> rfl)

theorem detect?_eq : detect? node' = detect? node := by
  rw [detect?, detect?, step.kind?_eq, step.kind?_eq]

theorem child?_eq_or : node'.child? name = node.child? name ∨
    ∃ child child', node.child? name = some child ∧ node'.child? name = some child' ∧
      dialect.RestylesField name child child' := by
  rw [Json.child?_eq_bind, Json.child?_eq_bind]
  rcases step.field?_eq_or name with equal | ⟨child, child', found, found', inner⟩
  · rw [equal]
    exact .inl rfl
  · rcases inner.ne_null with ⟨present, present'⟩
    refine .inr ⟨child, child', ?_, ?_, inner⟩
    · rw [found]
      cases child <;> trivial
    · rw [found']
      cases child' <;> trivial

/-- What is read from a child, if it is the same after a change of style there. -/
theorem read_child? {α : Type} (read : Option Json → α)
    (each : ∀ child child', node.child? name = some child →
      dialect.RestylesField name child child' → read (some child') = read (some child)) :
    read (node'.child? name) = read (node.child? name) := by
  rcases step.child?_eq_or name with equal | ⟨child, child', found, found', inner⟩
  · rw [equal]
  · rw [found, found', each child child' found inner]

theorem map_child? {α : Type} (read : Json → α)
    (each : ∀ child child', node.child? name = some child →
      dialect.RestylesField name child child' → read child' = read child) :
    (node'.child? name).map read = (node.child? name).map read :=
  step.read_child? name (·.map read) fun child child' found inner =>
    congrArg some (each child child' found inner)

/-- What is read from a child in a field in which no style shows. -/
theorem map_plainChild? {α : Type} (plain : isPlain name = true) (read : Json → α)
    (each : ∀ child child', node.child? name = some child →
      dialect.Restyles child child' → read child' = read child) :
    (node'.child? name).map read = (node.child? name).map read :=
  step.map_child? name read fun child child' found inner =>
    each child child' found (inner.restyles plain)

theorem bind_plainChild? {α : Type} (plain : isPlain name = true) (read : Json → Option α)
    (each : ∀ child child', dialect.Restyles child child' → read child' = read child) :
    (node'.child? name).bind read = (node.child? name).bind read :=
  step.read_child? name (·.bind read) fun child child' _ inner =>
    each child child' (inner.restyles plain)

/-- What is read from the items of a field, if stray values are skipped and each item is
read as before when it changes. -/
theorem flatMap_items {α : Type} (notBody : name ∉ dialect.bodyFields) (read : Json → List α)
    (skips : name ∈ dialect.listFields →
      ∀ value, dialect.kind? value = none → read value = [])
    (each : ∀ value value', value ∈ node.items name → dialect.Restyles value value' →
      read value' = read value) :
    (node'.items name).flatMap read = (node.items name).flatMap read := by
  rw [Json.items, Json.items] at *
  rcases step.field?_eq_or name with equal | ⟨value, value', found, found', inner⟩
  · rw [equal]
  · rw [found] at each
    rw [found, found']
    cases inner with
    | stray isList untagged => simp [skips isList _ untagged]
    | braces isBody => exact absurd isBody notBody
    | within inner =>
        cases inner with
        | item inner => simp [each _ _ (by simp) inner]
        | field => rfl

/-- What is read from the items of a field with at most one result each. -/
theorem filterMap_items {α : Type} (notBody : name ∉ dialect.bodyFields)
    (read : Json → Option α)
    (skips : name ∈ dialect.listFields →
      ∀ value, dialect.kind? value = none → read value = none)
    (each : ∀ value value', value ∈ node.items name → dialect.Restyles value value' →
      read value' = read value) :
    (node'.items name).filterMap read = (node.items name).filterMap read := by
  rw [List.filterMap_eq_flatMap_toList, List.filterMap_eq_flatMap_toList]
  refine step.flatMap_items name notBody _ (fun isList value untagged => ?_)
    fun value value' member inner => ?_
  · rw [skips isList value untagged, Option.toList_none]
  · rw [each value value' member inner]

/-- What is read from the items of a field in which no style shows. -/
theorem filterMap_plainItems {α : Type} (plain : isPlain name = true) (read : Json → Option α)
    (each : ∀ value value', dialect.Restyles value value' → read value' = read value) :
    (node'.items name).filterMap read = (node.items name).filterMap read := by
  have noStyle : name ∉ dialect.styleFields := not_mem_styleFields plain
  rw [styleFields, List.mem_append, not_or] at noStyle
  exact step.filterMap_items name noStyle.2 read (fun isList => absurd isList noStyle.1)
    fun value value' _ => each value value'

end Restyles

end Dialect

/-! ## Expressions -/

namespace Expr

/-- What is read from a node depends on its kind, its texts and what is read from its
children. -/
theorem ofNode_eq (dialect : Dialect) (node : Json) :
    ofNode dialect node =
      match dialect.kind? node with
      | none => .other ""
      | some kind =>
          if kind = dialect.assignmentKind then
            match node.textField? "operator",
              (node.child? dialect.targetField).map (ofNode dialect) with
            | some operator, some target =>
                if isAssignmentOperator operator then .assignment operator target
                else .other kind
            | _, _ => .other kind
          else if kind = "IndexAccess" then
            match (node.child? dialect.indexedField).map (ofNode dialect) with
            | none => .other kind
            | some base =>
                .indexAccess base ((node.child? dialect.indexField).map (ofNode dialect))
          else if kind = "MemberAccess" then
            match (node.child? "expression").map (ofNode dialect),
              node.textField? "memberName" with
            | some object, some member => .memberAccess object member
            | _, _ => .other kind
          else if kind = "Identifier" then
            match node.textField? "name" with
            | some name => .identifier name
            | none => .other kind
          else
            match literalText? dialect kind node with
            | some text => .literal text
            | none => .other kind := by
  rw [ofNode]
  cases dialect.kind? node with
  | none => rfl
  | some kind =>
      dsimp only
      split_ifs
      · split <;> simp_all
      · split
        · simp_all
        · split <;> simp_all
      · split <;> simp_all
      · rfl
      · rfl

variable {dialect : Dialect} {node node' : Json}

theorem literalText?_of_restyles (step : dialect.Restyles node node') (kind : String) :
    literalText? dialect kind node' = literalText? dialect kind node := by
  have blind : ∀ value : Json, value.isContainer = true → constantText? value = none := by
    intro value isContainer
    cases value <;> trivial
  cases dialect with
  | legacy =>
      rw [literalText?, literalText?, step.bind_field? "number" rfl constantText? blind,
        step.bind_field? "value" rfl constantText? blind]
  | compact =>
      rw [literalText?, literalText?, step.scalarText?_eq "value" rfl,
        step.textField?_eq "hexValue" rfl]

/-- An expression is read the same after a change of style. -/
theorem ofNode_of_restyles {node node' : Json} (step : dialect.Restyles node node') :
    ofNode dialect node' = ofNode dialect node := by
  have each : ∀ {name} child child', node.child? name = some child →
      dialect.Restyles child child' → ofNode dialect child' = ofNode dialect child :=
    fun child child' found inner => ofNode_of_restyles inner
  rw [ofNode_eq, ofNode_eq dialect node, step.kind?_eq, step.textField?_eq "operator" rfl,
    step.map_plainChild? dialect.targetField (by cases dialect <;> rfl) _ each,
    step.map_plainChild? dialect.indexedField (by cases dialect <;> rfl) _ each,
    step.map_plainChild? dialect.indexField (by cases dialect <;> rfl) _ each,
    step.map_plainChild? "expression" rfl _ each, step.textField?_eq "memberName" rfl,
    step.textField?_eq "name" rfl]
  simp only [literalText?_of_restyles step]
termination_by sizeOf node
decreasing_by exact Json.sizeOf_lt_of_child? found

end Expr

/-! ## Types -/

section Types

variable {dialect : Dialect} {node node' : Json}

theorem ArrayLength.ofNode?_of_restyles (step : dialect.Restyles node node') :
    ofNode? dialect node' = ofNode? dialect node := by
  cases dialect with
  | legacy =>
      rw [ofNode?, ofNode?, step.kind?_eq, step.scalarText?_eq "number" rfl,
        Expr.ofNode_of_restyles step]
  | compact => rw [ofNode?, ofNode?, Expr.ofNode_of_restyles step]

theorem referencePath?_of_restyles (step : dialect.Restyles node node') :
    referencePath? dialect node' = referencePath? dialect node := by
  cases dialect with
  | legacy => exact step.textField?_eq "namePath" rfl
  | compact =>
      rw [referencePath?, referencePath?,
        step.bind_plainChild? "pathNode" rfl _ fun _ _ inner => inner.textField?_eq "name" rfl,
        step.textField?_eq "name" rfl, step.textField?_eq "namePath" rfl]

theorem describesEnum_of_restyles (step : dialect.Restyles node node') :
    describesEnum dialect node' = describesEnum dialect node := by
  cases dialect with
  | legacy => rfl
  | compact =>
      rw [describesEnum, describesEnum, step.bind_plainChild? "typeDescriptions" rfl _
        fun _ _ inner => inner.textField?_eq "typeIdentifier" rfl]

namespace TypeName

/-- What is read from a node depends on its kind, its texts and what is read from its
children. -/
theorem ofNode_eq (dialect : Dialect) (node : Json) :
    ofNode dialect node =
      match dialect.kind? node with
      | none => .unknown ""
      | some kind =>
          if kind = "ElementaryTypeName" then
            match node.textField? "name" with
            | some name => .elementary name
            | none => .unknown kind
          else if kind = "UserDefinedTypeName" then
            match referencePath? dialect node with
            | some path => .userDefined path (describesEnum dialect node)
            | none => .unknown kind
          else if kind = "Mapping" then
            match (node.child? "keyType").map (ofNode dialect),
              (node.child? "valueType").map (ofNode dialect) with
            | some key, some value => .mapping key value
            | _, _ => .unknown kind
          else if kind = "ArrayTypeName" then
            match (node.child? dialect.elementField).map (ofNode dialect) with
            | some base =>
                .array base ((node.child? "length").bind (ArrayLength.ofNode? dialect))
            | none => .unknown kind
          else if kind = "FunctionTypeName" then .function
          else .unknown kind := by
  rw [ofNode]
  cases dialect.kind? node with
  | none => rfl
  | some kind =>
      dsimp only
      split_ifs
      · rfl
      · rfl
      · split <;> simp_all
      · split <;> simp_all
      · rfl
      · rfl

/-- A type is read the same after a change of style. -/
theorem ofNode_of_restyles {node node' : Json} (step : dialect.Restyles node node') :
    ofNode dialect node' = ofNode dialect node := by
  have each : ∀ {name} child child', node.child? name = some child →
      dialect.Restyles child child' → ofNode dialect child' = ofNode dialect child :=
    fun child child' found inner => ofNode_of_restyles inner
  rw [ofNode_eq, ofNode_eq dialect node, step.kind?_eq, step.textField?_eq "name" rfl,
    referencePath?_of_restyles step, describesEnum_of_restyles step,
    step.map_plainChild? "keyType" rfl _ each, step.map_plainChild? "valueType" rfl _ each,
    step.map_plainChild? dialect.elementField (by cases dialect <;> rfl) _ each,
    step.bind_plainChild? "length" rfl _ fun _ _ => ArrayLength.ofNode?_of_restyles]
termination_by sizeOf node
decreasing_by exact Json.sizeOf_lt_of_child? found

end TypeName

end Types

/-! ## Statements -/

section Statements

variable {dialect : Dialect} {node node' : Json}

/-- What is read from a node depends on its kind and on what is read from its children. -/
theorem Stmt.ofNode?_eq (dialect : Dialect) (node : Json) :
    Stmt.ofNode? dialect node = (dialect.kind? node).map fun kind =>
      if kind = "ExpressionStatement" then
        ((node.child? "expression").map (Expr.ofNode dialect)).elim (.other kind) .expression
      else if kind = "IfStatement" then
        .conditional (((node.child? dialect.thenField).map (Block.ofNode dialect)).getD [])
          ((node.child? dialect.elseField).map (Block.ofNode dialect))
      else if kind = "ForStatement" then
        .forLoop (((node.child? "body").map (Block.ofNode dialect)).getD [])
      else .other kind := by
  rw [Stmt.ofNode?]
  cases dialect.kind? node with
  | none => rfl
  | some kind =>
      dsimp only
      rw [Option.map_some]
      split_ifs
      · split <;> simp_all
      · split <;> split <;> simp_all
      · split <;> simp_all
      · rfl

/-- A statement that stands for a block is the only one of the block. -/
theorem Block.ofNode_of_not_isBlock (bare : ¬ dialect.IsBlock node) :
    Block.ofNode dialect node = (Stmt.ofNode? dialect node).toList := by
  rw [Block.ofNode_eq]
  split
  · next untagged =>
      rw [Stmt.ofNode?_eq, untagged]
      rfl
  · next kind tagged =>
      rw [if_neg]
      rintro (rfl | rfl)
      · exact bare (.inl tagged)
      · exact bare (.inr tagged)

theorem Block.ofNode_of_isBlock (isBlock : dialect.IsBlock node) :
    Block.ofNode dialect node = (node.items "statements").filterMap (Stmt.ofNode? dialect) := by
  rw [Block.ofNode_eq]
  rcases isBlock with kind | kind <;> simp [kind]

/-- A body without braces is read as the block that holds just it. -/
theorem Block.ofNode_of_braces {body block : Json} (bare : ¬ dialect.IsBlock body)
    (kind : dialect.kind? block = some "Block")
    (statements : block.field? "statements" = some (.array [body])) :
    Block.ofNode dialect block = Block.ofNode dialect body := by
  rw [Block.ofNode_of_isBlock (.inl kind), Block.ofNode_of_not_isBlock bare, Json.items, statements]
  cases read : Stmt.ofNode? dialect body <;> simp [read]

-- The recursion is that of the readers: from a block to its statements, and from a
-- statement to the bodies that it holds.
mutual

/-- A statement is read the same after a change of style. -/
theorem Stmt.ofNode?_of_restyles {node node' : Json} (step : dialect.Restyles node node') :
    Stmt.ofNode? dialect node' = Stmt.ofNode? dialect node := by
  have each : ∀ {name} child child', node.child? name = some child →
      dialect.RestylesField name child child' →
        Block.ofNode dialect child' = Block.ofNode dialect child :=
    fun child child' found inner => Block.ofNode_of_restylesField inner
  rw [Stmt.ofNode?_eq, Stmt.ofNode?_eq dialect node, step.kind?_eq,
    step.map_plainChild? "expression" rfl _ fun _ _ _ => Expr.ofNode_of_restyles,
    step.map_child? dialect.thenField _ each, step.map_child? dialect.elseField _ each,
    step.map_child? "body" _ each]
termination_by (sizeOf node, 0)
decreasing_by exact Prod.Lex.left _ _ (Json.sizeOf_lt_of_child? found)

/-- A block is read the same after a change of style. -/
theorem Block.ofNode_of_restyles {node node' : Json} (step : dialect.Restyles node node') :
    Block.ofNode dialect node' = Block.ofNode dialect node := by
  have sameKind : dialect.IsBlock node' ↔ dialect.IsBlock node := by
    rw [Dialect.IsBlock, Dialect.IsBlock, step.kind?_eq]
  by_cases isBlock : dialect.IsBlock node
  · rw [Block.ofNode_of_isBlock isBlock, Block.ofNode_of_isBlock (sameKind.mpr isBlock)]
    refine step.filterMap_items "statements" (by cases dialect <;> decide) _
      (fun _ value untagged => ?_) fun value value' member inner => Stmt.ofNode?_of_restyles inner
    rw [Stmt.ofNode?_eq, untagged, Option.map_none]
  · rw [Block.ofNode_of_not_isBlock isBlock, Block.ofNode_of_not_isBlock (isBlock ∘ sameKind.mp),
      Stmt.ofNode?_of_restyles step]
termination_by (sizeOf node, 1)
decreasing_by
  · exact Prod.Lex.left _ _ (Json.sizeOf_lt_of_mem_items member)
  · exact Prod.Lex.right _ Nat.zero_lt_one

/-- A body is read the same after a change of style in its field. -/
theorem Block.ofNode_of_restylesField {name : String} {node node' : Json} :
    dialect.RestylesField name node node' →
      Block.ofNode dialect node' = Block.ofNode dialect node
  | .stray _ _ => by
      rw [Block.ofNode_eq, Block.ofNode_eq]
      cases dialect <;> rfl
  | .braces _ _ bare kind statements => Block.ofNode_of_braces bare kind statements
  | .within step => Block.ofNode_of_restyles step
termination_by (sizeOf node, 2)
decreasing_by exact Prod.Lex.right _ Nat.one_lt_two

end

end Statements

end SolidityModel
