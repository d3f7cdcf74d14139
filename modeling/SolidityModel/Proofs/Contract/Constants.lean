import SolidityModel.Proofs.Contract.Placement
import SolidityModel.Proofs.Tree.Node
import SolidityModel.Tree.SourceUnit

/-!
# Constants with a literal value

Each dialect has its own nodes for literals, and a legacy tree may give the initial
value of a variable beside it.  A constant whose value is read as a literal leaves a
unit as it would be without the declaration, but for one constant more.  All sorts of
literals are read like this, except that a hexadecimal string of the legacy dialect
counts as any other expression, so that its constant stays a variable
(`SourceUnit.exists_placesLiteral`).
-/

namespace SolidityModel

/-! ## Nodes of literals and of constants -/

/-- The sorts of literals that may be the value of a constant. -/
inductive LiteralSort where
  | number
  | string
  | unicodeString
  | hexString
  deriving DecidableEq

namespace LiteralSort

/-- The kind of the legacy nodes of a sort; strings of both sorts share one. -/
def legacyKind : LiteralSort → String
  | number => "NumberLiteral"
  | string => "StringLiteral"
  | unicodeString => "StringLiteral"
  | hexString => "HexLiteral"

/-- The field of a legacy node that has the text. -/
def legacyField : LiteralSort → String
  | number => "number"
  | _ => "value"

/-- The name that compact nodes give to a sort. -/
def compactName : LiteralSort → String
  | number => "number"
  | string => "string"
  | unicodeString => "unicodeString"
  | hexString => "hexString"

/-- A node is a literal of a sort with a text.  A compact node of bytes that are no text
has them in another field. -/
def IsWritten (sort : LiteralSort) (text : String) (node : Json) : Dialect → Prop
  | .legacy => node.textField? "type" = some sort.legacyKind ∧
      (node.field? sort.legacyField).bind Json.scalarText? = some text
  | .compact => node.textField? "nodeType" = some "Literal" ∧
      node.textField? "kind" = some sort.compactName ∧
      ((node.child? "value").or (node.child? "hexValue")).bind Json.scalarText? = some text

/-- Whether a literal is a hexadecimal string of the legacy dialect. -/
def IsLegacyHex (sort : LiteralSort) (dialect : Dialect) : Prop :=
  dialect = .legacy ∧ sort = .hexString

instance (sort : LiteralSort) (dialect : Dialect) : Decidable (sort.IsLegacyHex dialect) :=
  inferInstanceAs (Decidable (_ ∧ _))

/-- A literal is read with its text, unless it is a hexadecimal string of the legacy
dialect. -/
theorem initializer_ofNode {sort : LiteralSort} {text : String} {node : Json} {dialect : Dialect}
    (written : sort.IsWritten text node dialect) :
    Initializer.ofNode dialect node =
      if sort.IsLegacyHex dialect then .expression else .literal text := by
  cases dialect with
  | legacy =>
      obtain ⟨kind, scalar⟩ := written
      cases sort <;>
        simp_all [Initializer.ofNode, Dialect.kind?, Dialect.kindField, legacyKind, legacyField,
          IsLegacyHex, Initializer.ofScalar]
  | compact =>
      obtain ⟨kind, name, scalar⟩ := written
      cases sort <;>
        simp_all [Initializer.ofNode, Dialect.kind?, Dialect.kindField, compactName,
          IsLegacyHex, Initializer.ofScalar]

end LiteralSort

/-- The node of a variable says that it is constant or immutable. -/
def IsFixedNode (node : Json) : Dialect → Prop
  | .legacy => node.flag "isDeclaredConst" = true ∨ node.flag "isImmutable" = true ∨
      node.flag "isDeclaredImmutable" = true
  | .compact => node.flag "constant" = true ∨ node.textField? "mutability" = some "constant" ∨
      node.textField? "mutability" = some "immutable"

theorem Mutability.ofNode_ne_mutable {node : Json} {dialect : Dialect}
    (fixed : IsFixedNode node dialect) : ofNode dialect node ≠ .mutable := by
  cases dialect with
  | legacy =>
      rw [ofNode]
      split
      · simp
      next notConstant =>
        have immutable := fixed.resolve_left notConstant
        simp [immutable]
  | compact =>
      rw [ofNode]
      split
      · simp
      next notConstant =>
        rcases fixed.resolve_left notConstant with stated | stated <;> simp [stated]

/-- The node of a state variable stands in the node of a contract.  In the legacy
dialect it stands in a group, which may give the initial value beside it. -/
inductive HoldsVariable (contractNode node : Json) : Dialect → Option Json → Prop where
  | legacy {group : Json} (isMember : group ∈ contractNode.items "subNodes")
      (isGroup : group.textField? "type" = some "StateVariableDeclaration")
      (isVariable : node ∈ group.items "variables") :
      HoldsVariable contractNode node .legacy (group.child? "initialValue")
  | compact (isMember : node ∈ contractNode.items "nodes")
      (isVariable : node.textField? "nodeType" = some "VariableDeclaration")
      (ofState : node.flag "stateVariable" = true) :
      HoldsVariable contractNode node .compact none

theorem mem_membersOfNode {contractNode node : Json} {dialect : Dialect} {outer? : Option Json}
    {decl : VarDecl} (holds : HoldsVariable contractNode node dialect outer?)
    (isRead : VarDecl.ofNode? dialect node outer? = some decl) :
    .stateVariable decl ∈ ContractDef.membersOfNode dialect contractNode := by
  rw [ContractDef.membersOfNode, List.mem_flatMap]
  cases holds with
  | @legacy group isMember isGroup isVariable =>
      refine ⟨group, isMember, ?_⟩
      rw [Member.listOfNode, Dialect.kind?, Dialect.kindField, isGroup]
      simp only [and_self, if_true]
      exact List.mem_map_of_mem (List.mem_filterMap.mpr ⟨node, isVariable, isRead⟩)
  | compact isMember isVariable ofState =>
      refine ⟨node, isMember, ?_⟩
      rw [Member.listOfNode, Dialect.kind?, Dialect.kindField, isVariable]
      simp [ofState, isRead]

/-! ## A unit without one declaration -/

/-- A declaration of a state variable at its place in a contract of a unit. -/
structure VariablePlace (unit : SourceUnit) (contract : String) (decl : VarDecl) where
  before : List UnitItem
  definition : ContractDef
  after : List UnitItem
  earlier : List Member
  later : List Member
  items_eq : unit.items = before ++ .contract definition :: after
  name_eq : definition.name = contract
  members_eq : definition.members = earlier ++ .stateVariable decl :: later

namespace VariablePlace

variable {unit : SourceUnit} {contract : String} {decl : VarDecl}

/-- The contract without the declaration. -/
def others (place : VariablePlace unit contract decl) : ContractDef :=
  { place.definition with members := place.earlier ++ place.later }

/-- The unit without the declaration. -/
def without (place : VariablePlace unit contract decl) : SourceUnit where
  items := place.before ++ .contract place.others :: place.after

/-- The types known at the place. -/
def registry (place : VariablePlace unit contract decl) : TypeRegistry :=
  place.earlier.foldl TypeRegistry.afterMember (.afterItems place.before)

/-- A declaration adds a variable to its contract if its type has a resolution, and no
constant.  The entries are those that the pass enters when it meets the contract. -/
structure AddsVariable (place : VariablePlace unit contract decl)
    (linearization : Linearization) : Prop where
  constants_eq : (Aggregation.ofUnit unit linearization).constants =
    (Aggregation.ofUnit place.without linearization).constants
  exists_entries : ∃ detail others front back,
    ((place.before ++ [UnitItem.contract place.definition]).foldl
      (Aggregation.visit linearization) .empty).details.get? contract = some detail ∧
    ((place.before ++ [UnitItem.contract place.others]).foldl
      (Aggregation.visit linearization) .empty).details.get? contract = some others ∧
    detail.stateVariables =
      front ++ (place.registry.resolveVariable? decl).toList ++ back ∧
    others.stateVariables = front ++ back

end VariablePlace

namespace Aggregation

/-- One aggregation has one constant more than another, and all else is the same. -/
structure AddsConstant (made : ConstantVar) (less more : Aggregation) : Prop where
  details_eq : more.details = less.details
  registry_eq : more.registry = less.registry
  exists_split : ∃ front back, less.constants = front ++ back ∧
    more.constants = front ++ made :: back

variable {made : ConstantVar} {less more : Aggregation} {linearization : Linearization}

/-- The constants gathered so far have no influence on what a pass does. -/
theorem AddsConstant.visit (adds : AddsConstant made less more) (item : UnitItem) :
    AddsConstant made (less.visit linearization item) (more.visit linearization item) := by
  obtain ⟨details, registry, front, back, lessSplit, moreSplit⟩ := adds
  cases item with
  | contract definition =>
      refine ⟨?_, ?_, front, back ++
        (OwnMembers.ofContract less.registry definition).constants, ?_, ?_⟩
      · simp only [Aggregation.visit, visitContract, details, registry]
      · simp only [Aggregation.visit, visitContract, registry]
      · simp only [Aggregation.visit, visitContract, lessSplit, List.append_assoc]
      · simp only [Aggregation.visit, visitContract, moreSplit, registry, List.append_assoc,
          List.cons_append]
  | structDef definition | enumDef definition =>
      exact ⟨details, by simp only [Aggregation.visit, registry], front, back, lessSplit, moreSplit⟩
  | pragma | other => exact ⟨details, registry, front, back, lessSplit, moreSplit⟩

theorem AddsConstant.foldl_visit (adds : AddsConstant made less more) (items : List UnitItem) :
    AddsConstant made (items.foldl (Aggregation.visit linearization) less)
      (items.foldl (Aggregation.visit linearization) more) := by
  induction items generalizing less more with
  | nil => exact adds
  | cons item rest ih => exact ih (adds.visit item)

end Aggregation

namespace VariablePlace

variable {unit : SourceUnit} {contract : String} {decl : VarDecl}
  (place : VariablePlace unit contract decl) (linearization : Linearization)

theorem constants_definition :
    place.definition.constants =
      place.earlier.filterMap (Member.constant? contract) ++
        (ConstantVar.ofDecl? contract decl).toList ++
          place.later.filterMap (Member.constant? contract) := by
  rw [ContractDef.constants, place.name_eq, place.members_eq, List.filterMap_append,
    List.filterMap_cons, Member.constant?]
  cases ConstantVar.ofDecl? contract decl <;> simp

theorem constants_others :
    place.others.constants =
      place.earlier.filterMap (Member.constant? contract) ++
        place.later.filterMap (Member.constant? contract) := by
  rw [ContractDef.constants, others, place.name_eq, List.filterMap_append]

theorem stateVariables_definition (known : TypeRegistry) :
    (OwnMembers.ofContract known place.definition).stateVariables =
      variablesFrom known contract place.earlier ++
        ((Member.stateVariable decl).declared?
          (place.earlier.foldl TypeRegistry.afterMember known) contract).toList ++
        variablesFrom (place.earlier.foldl TypeRegistry.afterMember known) contract
          place.later := by
  rw [OwnMembers.stateVariables_ofContract, place.name_eq, place.members_eq,
    variablesFrom_append, variablesFrom, List.append_assoc]
  rfl

theorem stateVariables_others (known : TypeRegistry) :
    (OwnMembers.ofContract known place.others).stateVariables =
      variablesFrom known contract place.earlier ++
        variablesFrom (place.earlier.foldl TypeRegistry.afterMember known) contract
          place.later := by
  rw [OwnMembers.stateVariables_ofContract, others, place.name_eq, variablesFrom_append]

theorem callables_definition (known : TypeRegistry) :
    (OwnMembers.ofContract known place.definition).callables =
      (OwnMembers.ofContract known place.others).callables := by
  simp only [OwnMembers.callables_ofContract, ContractDef.callables, others, place.members_eq,
    List.filterMap_append, List.filterMap_cons, Member.callable?]

theorem registry_definition (known : TypeRegistry) :
    (OwnMembers.ofContract known place.definition).registry =
      (OwnMembers.ofContract known place.others).registry := by
  simp only [OwnMembers.registry_ofContract, TypeRegistry.afterItem, others, place.members_eq,
    List.foldl_append, List.foldl_cons, TypeRegistry.afterMember]

/-- The entry of a contract right after its visit. -/
theorem get?_details_concat (linearization : Linearization) (before : List UnitItem)
    (definition : ContractDef) :
    ((before ++ [UnitItem.contract definition]).foldl
        (Aggregation.visit linearization) .empty).details.get? definition.name =
      some (ContractDetail.ofContract definition
        (OwnMembers.ofContract (.afterItems before) definition)
        (linearization.ancestorsOf definition.name)
        (before.foldl (Aggregation.visit linearization) .empty).details) :=
  Aggregation.get?_details_of_place List.not_mem_nil

/-- A constant is added alone: its contract has the same entry without it. -/
theorem addsConstant_visitContract {made : ConstantVar}
    (isConstant : ConstantVar.ofDecl? contract decl = some made) (aggregation : Aggregation) :
    (aggregation.visitContract linearization place.others).AddsConstant made
      (aggregation.visitContract linearization place.definition) := by
  let known := aggregation.registry
  have sameVariables : (OwnMembers.ofContract known place.definition).stateVariables =
      (OwnMembers.ofContract known place.others).stateVariables := by
    rw [stateVariables_definition, stateVariables_others, Member.declared?, isConstant]
    simp
  refine ⟨?_, place.registry_definition known,
    aggregation.constants ++ place.earlier.filterMap (Member.constant? contract),
    place.later.filterMap (Member.constant? contract), ?_, ?_⟩
  · simp only [Aggregation.visitContract, ContractDetail.ofContract, OwnMembers.functionNames,
      sameVariables, place.callables_definition known, known]
    rfl
  · simp only [Aggregation.visitContract, OwnMembers.constants_ofContract, constants_others,
      List.append_assoc]
  · simp only [Aggregation.visitContract, OwnMembers.constants_ofContract, constants_definition,
      isConstant, Option.toList_some, List.append_assoc, List.cons_append, List.nil_append]

/-- A constant comes in by itself. -/
theorem addsConstant {made : ConstantVar}
    (isConstant : ConstantVar.ofDecl? contract decl = some made) :
    (Aggregation.ofUnit place.without linearization).AddsConstant made
      (Aggregation.ofUnit unit linearization) := by
  rw [Aggregation.ofUnit, Aggregation.ofUnit, place.items_eq, without, List.foldl_append,
    List.foldl_append, List.foldl_cons, List.foldl_cons]
  exact (place.addsConstant_visitContract linearization isConstant _).foldl_visit place.after

/-- What is no constant is a variable of its contract, if it is anything. -/
theorem addsVariable (notConstant : ConstantVar.ofDecl? contract decl = none) :
    place.AddsVariable linearization where
  constants_eq := by
    have same : place.definition.constants = place.others.constants := by
      rw [constants_definition, constants_others, notConstant, Option.toList_none,
        List.append_nil]
    rw [Aggregation.ofUnit, Aggregation.ofUnit, Aggregation.constants_foldl_visit,
      Aggregation.constants_foldl_visit, place.items_eq, without]
    simp [UnitItem.contract?, same]
  exists_entries := by
    have known : place.earlier.foldl TypeRegistry.afterMember (.afterItems place.before) =
        place.registry := rfl
    have declared : (Member.stateVariable decl).declared? place.registry contract =
        place.registry.resolveVariable? decl := by rw [Member.declared?, notConstant]
    have entry (definition : ContractDef) (named : definition.name = contract) :=
      named ▸ get?_details_concat linearization place.before definition
    refine ⟨_, _, inheritedVariables (knownDetails
        (place.before.foldl (Aggregation.visit linearization) .empty).details
        ((linearization.ancestorsOf contract).toOption.getD [])) ++
        variablesFrom (.afterItems place.before) contract place.earlier,
      variablesFrom place.registry contract place.later,
      entry place.definition place.name_eq, entry place.others place.name_eq, ?_, ?_⟩
    · simp only [ContractDetail.ofContract, stateVariables_definition, known, declared,
        List.append_assoc]
    · simp only [ContractDetail.ofContract, stateVariables_others, known, List.append_assoc]

end VariablePlace

/-! ## Literal values in a tree -/

/-- The node of a contract declares a constant whose value is a literal. -/
structure DeclaresLiteral (contractNode node : Json) (dialect : Dialect) (outer? : Option Json)
    (sort : LiteralSort) (contract name text : String) : Prop where
  detected : Dialect.detect? contractNode = some dialect
  isContract : dialect.kind? contractNode = some "ContractDefinition"
  inContract : contractNode.textField? "name" = some contract
  holds : HoldsVariable contractNode node dialect outer?
  named : node.textField? "name" = some name
  fixed : IsFixedNode node dialect
  written : ∃ value, (node.child? (VarDecl.initialField dialect)).or outer? = some value ∧
    sort.IsWritten text value dialect

/-- What a constant with a literal value makes, wherever it stands in its unit. -/
structure PlacesLiteral (unit : SourceUnit) (contract : String) (decl : VarDecl)
    (sort : LiteralSort) (text : String) (dialect : Dialect) (linearization : Linearization) :
    Prop where
  exists_place : Nonempty (VariablePlace unit contract decl)
  /-- It adds one constant with the text of the literal, and nothing else. -/
  constant : ¬sort.IsLegacyHex dialect → ∀ place : VariablePlace unit contract decl,
    decl.initializer = .literal text ∧
      (Aggregation.ofUnit place.without linearization).AddsConstant
        ⟨contract, decl.name, decl.typeText?.getD "", text⟩
        (Aggregation.ofUnit unit linearization)
  /-- A hexadecimal string of the legacy dialect leaves it a variable. -/
  variable_of_legacyHex : sort.IsLegacyHex dialect → ∀ place : VariablePlace unit contract decl,
    decl.initializer = .expression ∧ place.AddsVariable linearization

namespace DeclaresLiteral

variable {contractNode node : Json} {dialect : Dialect} {outer? : Option Json}
  {sort : LiteralSort} {contract name text : String}

/-- The declaration is read, with the value that its literal has. -/
theorem exists_decl
    (declares : DeclaresLiteral contractNode node dialect outer? sort contract name text) :
    ∃ decl, VarDecl.ofNode? dialect node outer? = some decl ∧ decl.name = name ∧
      decl.mutability ≠ .mutable ∧
      decl.initializer = if sort.IsLegacyHex dialect then .expression else .literal text := by
  obtain ⟨value, found, written⟩ := declares.written
  rw [VarDecl.ofNode?, declares.named, found]
  exact ⟨_, rfl, rfl, Mutability.ofNode_ne_mutable declares.fixed,
    LiteralSort.initializer_ofNode written⟩

/-- The declaration has a place in every unit with the node of its contract. -/
theorem exists_place {nodes : List Json} {decl : VarDecl}
    (declares : DeclaresLiteral contractNode node dialect outer? sort contract name text)
    (isNode : contractNode ∈ nodes) (isRead : VarDecl.ofNode? dialect node outer? = some decl) :
    Nonempty (VariablePlace (SourceUnit.ofNodes nodes) contract decl) := by
  let definition : ContractDef :=
    { name := contract
      kind := ContractDef.kindOfNode dialect contractNode
      bases := ContractDef.basesOfNode dialect contractNode
      members := ContractDef.membersOfNode dialect contractNode }
  have itemRead : UnitItem.ofNode? dialect contractNode = some (.contract definition) := by
    rw [UnitItem.ofNode?, declares.isContract]
    simp [ContractDef.ofNode?, declares.inContract, definition]
  have isItem : .contract definition ∈ (SourceUnit.ofNodes nodes).items :=
    List.mem_filterMap.mpr ⟨contractNode, isNode, by rw [declares.detected]; exact itemRead⟩
  obtain ⟨before, after, items_eq⟩ := List.append_of_mem isItem
  obtain ⟨earlier, later, members_eq⟩ :=
    List.append_of_mem (mem_membersOfNode declares.holds isRead)
  exact ⟨⟨before, definition, after, earlier, later, items_eq, rfl, members_eq⟩⟩

end DeclaresLiteral

namespace SourceUnit

/-- A declaration with a literal for its value is read and placed, whatever the dialect
of its contract and wherever the literal is given. -/
theorem exists_placesLiteral {nodes : List Json} {contractNode node : Json} {dialect : Dialect}
    {outer? : Option Json} {sort : LiteralSort} {contract name text : String}
    (isNode : contractNode ∈ nodes)
    (declares : DeclaresLiteral contractNode node dialect outer? sort contract name text)
    (linearization : Linearization) :
    ∃ decl, VarDecl.ofNode? dialect node outer? = some decl ∧ decl.name = name ∧
      PlacesLiteral (ofNodes nodes) contract decl sort text dialect linearization := by
  obtain ⟨decl, isRead, named, fixed, value⟩ := declares.exists_decl
  refine ⟨decl, isRead, named, declares.exists_place isNode isRead,
    fun notLegacyHex place => ?_, fun legacyHex place => ?_⟩
  · rw [if_neg notLegacyHex] at value
    refine ⟨value, place.addsConstant linearization ?_⟩
    rw [ConstantVar.ofDecl?, if_neg fixed, value]
    rfl
  · rw [if_pos legacyHex] at value
    refine ⟨value, place.addsVariable linearization ?_⟩
    rw [ConstantVar.ofDecl?, if_neg fixed, value]
    rfl

/-- A hexadecimal string.  The compact dialect has its bytes in another field if they
are no text. -/
def hexNode (dialect : Dialect) : Json :=
  match dialect with
  | .legacy => dialect.node "HexLiteral" [("value", .string "ff00")]
  | .compact => dialect.node "Literal"
      [("kind", .string "hexString"), ("value", .null), ("hexValue", .string "ff00")]

/-- A constant with this value. -/
def markNode (dialect : Dialect) : Json :=
  dialect.node "VariableDeclaration"
    [("name", .string "MARK"),
      ("typeName", dialect.node "ElementaryTypeName" [("name", .string "bytes2")]),
      ("isDeclaredConst", .bool true), ("constant", .bool true), ("stateVariable", .bool true),
      (VarDecl.initialField dialect, hexNode dialect)]

/-- A legacy declaration gives the value of the variable once more. -/
def groupNode : Json :=
  Dialect.legacy.node "StateVariableDeclaration"
    [("variables", .array [markNode .legacy]), ("initialValue", hexNode .legacy)]

/-- A contract with this constant. -/
def badgeNode (dialect : Dialect) : Json :=
  dialect.node "ContractDefinition"
    [("name", .string "Badge"),
      (dialect.membersField, .array [
        match dialect with
        | .legacy => groupNode
        | .compact => markNode .compact])]

theorem declaresLiteral_badgeNode_compact :
    DeclaresLiteral (badgeNode .compact) (markNode .compact) .compact none
      .hexString "Badge" "MARK" "ff00" where
  detected := Dialect.detect?_node rfl
  isContract := Dialect.kind?_node
  inContract := by simp [badgeNode]
  holds := .compact (.head _) rfl rfl
  named := by simp [markNode]
  fixed := .inl rfl
  written := ⟨hexNode .compact, rfl, rfl, rfl, rfl⟩

theorem badgeNode_placesLiteral :
    ∃ decl, VarDecl.ofNode? .compact (markNode .compact) none = some decl ∧
      decl.name = "MARK" ∧
      PlacesLiteral (ofNodes [badgeNode .compact]) "Badge" decl .hexString "ff00" .compact
        (ofNodes [badgeNode .compact]).inheritance.linearize :=
  exists_placesLiteral (List.mem_singleton_self _) declaresLiteral_badgeNode_compact _

theorem declaresLiteral_badgeNode_legacy :
    DeclaresLiteral (badgeNode .legacy) (markNode .legacy) .legacy
      (groupNode.child? "initialValue") .hexString "Badge" "MARK" "ff00" where
  detected := Dialect.detect?_node rfl
  isContract := Dialect.kind?_node
  inContract := by simp [badgeNode]
  holds := .legacy (.head _) rfl (.head _)
  named := by simp [markNode]
  fixed := .inl rfl
  written := ⟨hexNode .legacy, rfl, rfl, rfl⟩

/-- The same constant of the legacy dialect stays a variable. -/
theorem badgeNode_legacy_keeps_variable :
    DeclaresLiteral (badgeNode .legacy) (markNode .legacy) .legacy
      (groupNode.child? "initialValue") .hexString "Badge" "MARK" "ff00" ∧
    (VarDecl.ofNode? .legacy (markNode .legacy) (groupNode.child? "initialValue")).map
      (·.initializer) = some .expression ∧
    (ofNodes [badgeNode .legacy]).aggregation.constants = [] ∧
    ((ofNodes [badgeNode .legacy]).aggregation.details.get? "Badge").map (·.stateVariables) =
      some [⟨"MARK", .elementary "bytes2"⟩] :=
  ⟨declaresLiteral_badgeNode_legacy, rfl, by decide +kernel, by decide +kernel⟩

end SourceUnit

end SolidityModel
